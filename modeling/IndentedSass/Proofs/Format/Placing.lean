/-
  Lines at their columns.

  * `Format.placed` is a line at a column: moved there, or left where it is with the
    indentation and the end that the settings ask for;
  * `Format.placed_spec`: the column and the parts of a placed line, from which it
    follows that it keeps its traits (`traits_placed`) and that placing it once more
    changes nothing (`placed_placed`).
-/
import Mathlib
import IndentedSass.Format.Line
import IndentedSass.Proofs.Indent.Snapping
import IndentedSass.Proofs.Line.Spacing

namespace IndentedSass

/-! ## The ends of a line -/

/-- A text ends in no white space other than blanks. -/
def EndsPlainly (t : Text) : Prop := ∀ c ∈ t.getLast?, isWhite c = true → isBlank c = true

theorem endsPlainly_iff (t : Text) :
    EndsPlainly t ↔ (t.getLast?.all fun c => !isWhite c || isBlank c) = true := by
  unfold EndsPlainly
  cases t.getLast? with
  | none => simp
  | some c =>
    simp only [Option.mem_some_iff, forall_eq', Option.all_some]
    cases isWhite c <;> simp

instance (t : Text) : Decidable (EndsPlainly t) := decidable_of_iff' _ (endsPlainly_iff t)

namespace Text

theorem endsPlainly_trimEnd (t : Text) : EndsPlainly (trimEnd t) := by
  intro c hc hwhite
  rw [getLast?_trimEnd t c hc] at hwhite
  cases hwhite

/-- What follows something else ends as it would on its own. -/
theorem endsPlainly_append {pre t : Text} (hne : t ≠ []) :
    EndsPlainly (pre ++ t) ↔ EndsPlainly t := by
  unfold EndsPlainly
  rw [List.getLast?_append_of_ne_nil _ hne]

theorem width_pos {tab : Nat} (ht : 0 < tab) {c : Char} {t : Text} (hc : isBlank c = true) :
    0 < Indent.width tab (c :: t) := by
  rcases isBlank_iff.1 hc with rfl | rfl
  · simp [Indent.width]
  · simp [Indent.width, ht]

/-- A text without blanks at its end has nothing to trim. -/
theorem trimEnd_of_trailingWidth {tab : Nat} {t : Text} (ht : 0 < tab) (h : EndsPlainly t)
    (hzero : ¬0 < Indent.trailingWidth tab t) : trimEnd t = t := by
  refine trimEnd_eq_self fun c hc => ?_
  refine Bool.eq_false_iff.2 fun hwhite => hzero ?_
  obtain ⟨rest, hrest⟩ : ∃ rest, t.reverse = c :: rest := by
    rw [List.getLast?_eq_head?_reverse] at hc
    exact List.head?_eq_some_iff.1 hc
  rw [Indent.trailingWidth, hrest]
  exact width_pos ht (h c hc hwhite)

/-- The white space at the end of a text. -/
def endWhite (t : Text) : Text := (t.reverse.takeWhile isWhite).reverse

theorem trimEnd_append_endWhite (t : Text) : trimEnd t ++ endWhite t = t := trimmed_append_end t

theorem white_endWhite (t : Text) : White (endWhite t) :=
  fun _ hc => List.mem_takeWhile_imp (List.mem_reverse.1 hc)

theorem endWhite_eq_nil_iff {t : Text} : endWhite t = [] ↔ trimEnd t = t := by
  conv_rhs => rw [eq_comm]; lhs; rw [← trimEnd_append_endWhite t]
  exact List.append_right_eq_self.symm

theorem endWhite_append {pre t : Text} (hne : trimEnd t ≠ []) :
    endWhite (pre ++ t) = endWhite t := by
  have hsplit := trimEnd_append_endWhite (pre ++ t)
  rw [trimEnd_append hne, List.append_assoc] at hsplit
  have hcut := List.append_cancel_left hsplit
  conv_rhs at hcut => rw [← trimEnd_append_endWhite t]
  exact List.append_cancel_left hcut

end Text

namespace Line

/-- A line that is not blank has something visible behind its indentation. -/
theorem body_of_visible {t : Text} (h : isBlankLine t = false) :
    Text.trimEnd t.body ≠ [] := by
  intro hnil
  have htrim : t.trim = [] := by
    rw [← t.blanks_append_body, Text.trim_blanks t.blanks_blanks]
    obtain ⟨ws, hw, hbody⟩ := Text.exists_white t.body
    rw [hnil] at hbody
    rw [hbody, Text.trim_white hw]
    rfl
  rw [isBlankLine, Text.isAllWhite, htrim] at h
  cases h

/-- The indentation of a line is all that is measured. -/
theorem width_body (tab : Nat) (t : Text) : Indent.width tab t.body = 0 := by
  cases h : t.body with
  | nil => rfl
  | cons c rest =>
    have hblank := isBlank_head_body h
    simp only [isBlank, Bool.or_eq_false_iff, beq_eq_false_iff_ne] at hblank
    simp [Indent.width, hblank.1, hblank.2]

/-- What follows the indentation of a line that is not blank, with or without the white
    space at its end, begins with no blank. -/
theorem body_parts {t b : Text} (h : isBlankLine t = false)
    (hb : b = t.body ∨ b = Text.trimEnd t.body) : ∃ c rest, b = c :: rest ∧ isBlank c = false := by
  obtain ⟨c, rest, hc⟩ := List.exists_cons_of_ne_nil (body_of_visible h)
  obtain ⟨ws, -, hsplit⟩ := Text.exists_white t.body
  rw [hc, List.cons_append] at hsplit
  rcases hb with rfl | rfl
  · exact ⟨c, _, hsplit, isBlank_head_body hsplit⟩
  · exact ⟨c, rest, hc, isBlank_head_body hsplit⟩

end Line

namespace Format

variable {config : FormatConfig} {style : IndentStyle} {column : Nat} {text : Text}

/-- A text without the white space at its end, when that is asked for. -/
def trimmed (config : FormatConfig) (text : Text) : Text :=
  if config.trimTrailing then text.trimEnd else text

/-- A text at a column. -/
def placed (config : FormatConfig) (style : IndentStyle) (column : Nat) (text : Text) : Text :=
  if Indent.width style.tabStop text = column then
    trimmed config (withNormalIndent config style text).1
  else (Indent.ofColumn style column ++ text.body).trimEnd

/-- Writing the indentation anew does not move a line. -/
theorem withNormalIndent_spec (config : FormatConfig) (style : IndentStyle) (text : Text) :
    ∃ pre, (withNormalIndent config style text).1 = pre ++ text.body ∧ Blanks pre ∧
      Indent.width style.tabStop (pre ++ text.body) = Indent.width style.tabStop text ∧
      (config.normalizeIndent = true →
        pre = Indent.ofColumn style (Indent.width style.tabStop text)) := by
  unfold withNormalIndent
  split
  · refine ⟨_, rfl, Indent.blanks_ofColumn _ _, ?_, fun _ => by simp⟩
    rw [Indent.width_ofColumn, Line.width_body]
    simp
  · rename_i hnormal
    refine ⟨text.blanks, text.blanks_append_body.symm, text.blanks_blanks, ?_, fun hconfig => ?_⟩
    · rw [text.blanks_append_body]
    · rw [hconfig, Bool.true_and, Bool.not_eq_true', Bool.not_eq_false, hasNormalIndent,
        beq_iff_eq] at hnormal
      exact hnormal.symm

/-- A line is moved to a column from its indentation as it is written anew. -/
theorem placed_eq (config : FormatConfig) (style : IndentStyle) (column : Nat) (text : Text) :
    placed config style column text =
      if Indent.width style.tabStop (withNormalIndent config style text).1 = column then
        trimmed config (withNormalIndent config style text).1
      else
        (Indent.ofColumn style column ++ (withNormalIndent config style text).1.body).trimEnd := by
  obtain ⟨pre, hpre, hblanks, hwidth, -⟩ := withNormalIndent_spec config style text
  have hbody : (pre ++ text.body).body = text.body := by
    rw [Text.body_blanks hblanks]
    exact List.dropWhile_idempotent ..
  rw [placed, hpre, hwidth, hbody]

theorem trimEnd_withNormalIndent (hvisible : Line.isBlankLine text = false)
    (h : text.trimEnd = text) :
    (withNormalIndent config style text).1.trimEnd = (withNormalIndent config style text).1 := by
  obtain ⟨pre, hpre, -⟩ := withNormalIndent_spec config style text
  have hbody := Line.body_of_visible hvisible
  have hlast : Text.trimEnd text.body = text.body := by
    rw [← text.blanks_append_body, Text.trimEnd_append hbody] at h
    exact List.append_cancel_left h
  rw [hpre, Text.trimEnd_append hbody, hlast]

theorem endWhite_withNormalIndent (hvisible : Line.isBlankLine text = false) :
    (withNormalIndent config style text).1.endWhite = text.endWhite := by
  obtain ⟨pre, hpre, -⟩ := withNormalIndent_spec config style text
  have hbody := Line.body_of_visible hvisible
  conv_rhs => rw [← text.blanks_append_body]
  rw [hpre, Text.endWhite_append hbody, Text.endWhite_append hbody]

variable (config style column) in
/-- The parts of a placed line. -/
theorem placed_spec (hvisible : Line.isBlankLine text = false) :
    ∃ pre b, placed config style column text = pre ++ b ∧ Blanks pre ∧
      (b = text.body ∨ b = Text.trimEnd text.body) ∧
      Indent.width style.tabStop (pre ++ b) = column ∧
      (config.normalizeIndent = true → pre = Indent.ofColumn style column) ∧
      (config.trimTrailing = true → b = Text.trimEnd text.body) := by
  have hbody := Line.body_of_visible hvisible
  -- trimming does not touch the indentation
  have hwidth : ∀ pre : Text, Indent.width style.tabStop (pre ++ Text.trimEnd text.body) =
      Indent.width style.tabStop (pre ++ text.body) := by
    intro pre
    obtain ⟨c, rest, hc, hblank⟩ := Line.body_parts hvisible (.inr rfl)
    obtain ⟨ws, -, hsplit⟩ := Text.exists_white text.body
    rw [hc, List.cons_append] at hsplit
    rw [hc, hsplit]
    exact Line.width_congr hblank pre rest (rest ++ ws)
  unfold placed
  by_cases hcolumn : Indent.width style.tabStop text = column
  · rw [if_pos hcolumn]
    obtain ⟨pre, hpre, hblanks, hsame, hnormal⟩ := withNormalIndent_spec config style text
    rw [hcolumn] at hsame hnormal
    rw [hpre, trimmed]
    by_cases htrim : config.trimTrailing = true
    · rw [if_pos htrim, Text.trimEnd_append hbody]
      exact ⟨pre, _, rfl, hblanks, .inr rfl, (hwidth pre).trans hsame, hnormal, fun _ => rfl⟩
    · rw [if_neg htrim]
      exact ⟨pre, _, rfl, hblanks, .inl rfl, hsame, hnormal, fun h => absurd h htrim⟩
  · rw [if_neg hcolumn, Text.trimEnd_append hbody]
    refine ⟨_, _, rfl, Indent.blanks_ofColumn _ _, .inr rfl, ?_, fun _ => rfl, fun _ => rfl⟩
    rw [hwidth, Indent.width_ofColumn, Line.width_body, Nat.add_zero]

variable (config style) in
/-- A placed line is at its column. -/
theorem width_placed (column : Nat) (hvisible : Line.isBlankLine text = false) :
    Indent.width style.tabStop (placed config style column text) = column := by
  obtain ⟨pre, b, hplaced, -, -, hwidth, -⟩ := placed_spec config style column hvisible
  rw [hplaced, hwidth]

variable (config style) in
/-- A placed line keeps its traits. -/
theorem traits_placed (column : Nat) (hvisible : Line.isBlankLine text = false) :
    Line.traits (placed config style column text) = Line.traits text := by
  obtain ⟨pre, b, hplaced, hblanks, hb, -⟩ := placed_spec config style column hvisible
  have hbody : Line.traits text.body = Line.traits text := by
    rw [← Line.traits_blanks text.blanks_blanks text.body, text.blanks_append_body]
  rw [hplaced, Line.traits_blanks hblanks, ← hbody]
  rcases hb with rfl | rfl
  · rfl
  · obtain ⟨ws, hw, hsplit⟩ := Text.exists_white text.body
    conv_rhs => rw [hsplit]
    rw [Line.traits_white hw]

variable (config style) in
theorem hasSpaceAfterColon_placed (column : Nat) (hvisible : Line.isBlankLine text = false) :
    Line.hasSpaceAfterColon (placed config style column text) = Line.hasSpaceAfterColon text := by
  obtain ⟨pre, b, hplaced, hblanks, hb, -⟩ := placed_spec config style column hvisible
  have hbody : Line.hasSpaceAfterColon text.body = Line.hasSpaceAfterColon text := by
    rw [← Line.hasSpaceAfterColon_blanks text.blanks_blanks text.body, text.blanks_append_body]
  rw [hplaced, Line.hasSpaceAfterColon_blanks hblanks, ← hbody]
  rcases hb with rfl | rfl
  · rfl
  · obtain ⟨ws, hw, hsplit⟩ := Text.exists_white text.body
    conv_rhs => rw [hsplit]
    rw [Line.hasSpaceAfterColon_white hw]

/-- A mark stays one where it is placed. -/
theorem isMark_placed {mark : Char} (hmark : isWhite mark = false)
    (hvisible : Line.isBlankLine text = false) (h : Line.isMark mark text = true) :
    Line.isMark mark (placed config style column text) = true := by
  obtain ⟨pre, b, hplaced, hblanks, hb, -⟩ := placed_spec config style column hvisible
  have hindent : ∀ {pre t : Text}, Blanks pre → Line.isMark mark (pre ++ t) = Line.isMark mark t := by
    intro pre t hblanks
    unfold Line.isMark
    rw [Text.body_blanks hblanks]
  rw [← text.blanks_append_body, hindent text.blanks_blanks] at h
  rw [hplaced, hindent hblanks]
  rcases hb with rfl | rfl
  · exact h
  · obtain ⟨ws, hw, hsplit⟩ := Text.exists_white text.body
    rw [hsplit] at h
    exact Line.isMark_of_white hmark hw h

variable (config style) in
/-- Placing a line once more changes nothing. -/
theorem placed_placed (column : Nat) (hvisible : Line.isBlankLine text = false) :
    placed config style column (placed config style column text) =
      placed config style column text := by
  obtain ⟨pre, b, hplaced, hblanks, hb, hwidth, hnormal, htrim⟩ :=
    placed_spec config style column hvisible
  obtain ⟨c, rest, rfl, hc⟩ := Line.body_parts hvisible hb
  have hpre : Text.blanks (pre ++ c :: rest) = pre := by
    rw [Text.blanks, List.takeWhile_append_of_pos hblanks,
      List.takeWhile_cons_of_neg (by simp [hc]), List.append_nil]
  have hsame : withNormalIndent config style (pre ++ c :: rest) = (pre ++ c :: rest, false) := by
    unfold withNormalIndent
    refine if_neg ?_
    rw [Bool.and_eq_true, not_and]
    intro hconfig
    rw [hasNormalIndent, hwidth, hpre, hnormal hconfig]
    simp
  rw [hplaced, placed, if_pos hwidth, hsame, trimmed]
  split
  · rename_i hconfig
    have hlast : Text.trimEnd (c :: rest) = c :: rest := by
      rw [htrim hconfig, Text.trimEnd_trimEnd]
    rw [Text.trimEnd_append (by rw [hlast]; simp), hlast]
  · rfl

theorem endsPlainly_placed (hvisible : Line.isBlankLine text = false) (hends : EndsPlainly text) :
    EndsPlainly (placed config style column text) := by
  obtain ⟨pre, b, hplaced, -, hb, -⟩ := placed_spec config style column hvisible
  obtain ⟨c, rest, rfl, -⟩ := Line.body_parts hvisible hb
  rw [hplaced, Text.endsPlainly_append (by simp)]
  rcases hb with hb | hb
  · rw [← text.blanks_append_body, Text.endsPlainly_append (by rw [← hb]; simp)] at hends
    rwa [hb]
  · rw [hb]
    exact Text.endsPlainly_trimEnd _

/-- Nothing but blanks is added to a placed line. -/
theorem mem_of_mem_placed {c : Char} (hvisible : Line.isBlankLine text = false)
    (h : c ∈ placed config style column text) : isBlank c = true ∨ c ∈ text := by
  obtain ⟨pre, b, hplaced, hblanks, hb, -⟩ := placed_spec config style column hvisible
  rw [hplaced] at h
  rcases List.mem_append.1 h with hpre | hbody
  · exact .inl (hblanks c hpre)
  · refine .inr (List.dropWhile_subset isBlank ?_)
    rcases hb with rfl | rfl
    · exact hbody
    · exact Text.mem_of_mem_trimEnd hbody

end Format

end IndentedSass
