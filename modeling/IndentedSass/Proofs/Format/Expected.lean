/-
  The levels that the formatter expects.

  The formatter remembers columns.  Where lines stand at tab stops the columns are those of
  levels, which follow from what it takes the lines for.

  * `Format.Expected` are the levels, `Expected.next` those after a line (`Matches.next`);
  * `column_of_header`, `column_of_property`: the column that a line is placed at.
-/
import Mathlib
import IndentedSass.Proofs.Format.Seen
import IndentedSass.Proofs.Format.Standing
import IndentedSass.Proofs.Indent.Levels

namespace IndentedSass.Format

variable {config : FormatConfig} {style : IndentStyle} {st : FormatState} {line new : Text}

/-! ## Lines that stay -/

/-- A line that stays loses the white space at its end, or nothing. -/
theorem Trims.of_stays (h : treatment style st line = .stays)
    (htrims : Trims line (advance config style st line).2 new) : new = line.trimEnd ∨ new = line := by
  have hend : (advance config style st line).2.trimEnd = line.trimEnd := by
    rw [(advance_of_stays config h).2]
    split
    · rfl
    · exact trimEnd_trimmed config line
  rw [Trims, hend, line.trimEnd_append_endWhite] at htrims
  exact htrims

/-- A blank line stays. -/
theorem treatment_of_isBlankLine (h : Line.isBlankLine line = true) :
    treatment style st line = .stays := by
  have hheader : (LineRole.ofLine style.tabStop st line).1.isHeader line ≠ true :=
    fun hheader => absurd (h.symm.trans (visible_of_isHeader hheader)) Bool.noConfusion
  have hproperty : (LineRole.ofLine style.tabStop st line).1.isPropertyLike line ≠ true :=
    fun hproperty => absurd (h.symm.trans (visible_of_isPropertyLike hproperty)) Bool.noConfusion
  unfold treatment
  dsimp only
  rw [if_neg hheader, if_neg hproperty, ite_self]

/-! ## Levels -/

/-- The level of the column of a line. -/
def levelAt (style : IndentStyle) (line : Text) : Nat :=
  Indent.level style.tabStop (Indent.width style.tabStop line)

/-- A line stands at a tab stop. -/
structure AtStop (style : IndentStyle) (line : Text) : Prop where
  dvd : style.tabStop ∣ Indent.width style.tabStop line
  width_lt : Indent.width style.tabStop line < 2 ^ 50

instance : Decidable (AtStop style line) :=
  decidable_of_iff (_ ∧ _) ⟨fun ⟨hdvd, hlt⟩ => ⟨hdvd, hlt⟩, fun h => ⟨h.dvd, h.width_lt⟩⟩

/-- A line at a tab stop stands at the column of its level. -/
theorem AtStop.width_eq (h : AtStop style line) :
    Indent.width style.tabStop line = levelAt style line * style.tabStop := by
  have hlt := h.width_lt
  rw [levelAt, Indent.level_of_dvd style.tabStop_pos h.dvd (by omega), Nat.div_mul_cancel h.dvd]

/-- The levels at which lines are expected. -/
structure Expected where
  /-- The deepest level of a header. -/
  headers : Nat := 0
  /-- The level of a property. -/
  properties : Nat := 0
  /-- The level of a keyframe point. -/
  points : Nat := 0
  deriving DecidableEq, Repr

namespace Expected

/-- The level at which a header is placed. -/
def header (style : IndentStyle) (line : Text) (e : Expected) : Nat :=
  if Line.isResetMark line then levelAt style line else min (levelAt style line) e.headers

/-- The level at which a line that is formatted as a property is placed; global variables
    stay where they are. -/
def property (style : IndentStyle) (st : FormatState) (line : Text) (e : Expected) : Nat :=
  if Line.isVariable line && Indent.width style.tabStop line == 0 then 0
  else if st.inKeyframes && Line.isIfOrElse line then e.points + 1
  else if !st.inKeyframes && Line.isElse line then e.headers - 1
  else if st.inKeyframes && Line.isKeyframePoint line then e.points
  else e.properties

/-- The levels after a line. -/
def next (style : IndentStyle) (st : FormatState) (line : Text) (e : Expected) : Expected :=
  let role := (LineRole.ofLine style.tabStop st line).1
  match treatment style st line with
  | .stays => e
  | .header =>
    let inner := if role.isReset then e.header style line else e.header style line + 1
    ⟨inner, inner, if role.isKeyframes then e.header style line + 1 else e.points⟩
  | .property =>
    let e :=
      if Line.isVariable line && Indent.width style.tabStop line == 0 then ⟨0, 0, e.points⟩ else e
    { e with
      properties :=
        if role.isBranch then if st.inKeyframes then e.points + 2 else e.headers
        else if st.inKeyframes && role.isKeyframePoint then e.points + 1
        else e.properties }

end Expected

/-- The levels tell the columns of a state. -/
structure Matches (tab : Nat) (st : FormatState) (e : Expected) : Prop where
  headers : st.headerLimit = e.headers * tab
  properties : st.propertyColumn = e.properties * tab
  points : st.keyframeColumn = e.points * tab

theorem matches_start (tab : Nat) : Matches tab {} {} :=
  ⟨(Nat.zero_mul tab).symm, (Nat.zero_mul tab).symm, (Nat.zero_mul tab).symm⟩

variable {e : Expected}

theorem Matches.of_sameColumns {tab : Nat} {st' : FormatState} (h : Matches tab st e)
    (hsame : SameColumns st st') : Matches tab st' e :=
  ⟨hsame.headers.trans h.headers, hsame.properties.trans h.properties,
    hsame.points.trans h.points⟩

/-! ## Columns -/

/-- A header stays at its tab stop, or goes to the limit. -/
theorem Matches.snapColumn_eq (h : Matches style.tabStop st e) (ht : style.tabStop < 2 ^ 50)
    (hstop : AtStop style line) :
    Indent.snapColumn style.tabStop (Indent.width style.tabStop line) st.headerLimit
      (Line.isResetMark line) = e.header style line * style.tabStop := by
  have hlt := hstop.width_lt
  have hle : Indent.width style.tabStop line ≤ 2 ^ 50 + 4 * style.tabStop := by omega
  unfold Expected.header
  cases Line.isResetMark line with
  | true =>
    rw [if_pos rfl, ← hstop.width_eq]
    exact Indent.snapColumn_of_dvd style.tabStop_pos ht hstop.dvd hle fun h => nomatch h
  | false =>
    rw [if_neg Bool.false_ne_true, Indent.snapColumn_min _ style.tabStop_pos ht hstop.dvd hle,
      h.headers, hstop.width_eq]
    exact Nat.mul_min_mul_right ..

/-- A line that is formatted as a property goes to the column of its level. -/
theorem Matches.propertyState_column (h : Matches style.tabStop st e) (line : Text) :
    (propertyState style (codeState style st line) line).propertyColumn =
      e.property style st line * style.tabStop := by
  unfold propertyState Expected.property
  by_cases hglobal : (Line.isVariable line && Indent.width style.tabStop line == 0) = true
  · rw [if_pos hglobal, if_pos hglobal, Nat.zero_mul]
  rw [if_neg hglobal, if_neg hglobal, codeState_propertyColumn]
  split_ifs
  · rw [h.points, Nat.succ_mul]
  · rw [h.headers, Nat.sub_mul, Nat.one_mul]
  · exact h.points
  · exact h.properties

theorem Settled.propertyState_le (h : Settled style.tabStop st) (line : Text) :
    (propertyState style (codeState style st line) line).propertyColumn ≤
      2 ^ 50 + 4 * style.tabStop := by
  unfold propertyState
  split
  · exact Nat.zero_le _
  · exact (h.codeState_stop line).2

variable (config) in
/-- The column of a header. -/
theorem column_of_header (hm : Matches style.tabStop st e) (ht : style.tabStop < 2 ^ 50)
    (hstop : AtStop style line) (h : treatment style st line = .header) :
    Indent.width style.tabStop (advance config style st line).2 =
      e.header style line * style.tabStop := by
  obtain ⟨hheader, hadvance⟩ := advance_of_header config h
  rw [hadvance, Format.header, width_placed config style _ (visible_of_isHeader hheader),
    (codeState_frame style st line).1]
  exact hm.snapColumn_eq ht hstop

variable (config) in
/-- The column of a line that is formatted as a property. -/
theorem column_of_property (hm : Matches style.tabStop st e)
    (h : treatment style st line = .property) :
    Indent.width style.tabStop (advance config style st line).2 =
      e.property style st line * style.tabStop := by
  obtain ⟨hproperty, hadvance⟩ := advance_of_property config h
  have hvisible : Line.isBlankLine
      (spaced config (LineRole.ofLine style.tabStop st line).1 line) = false :=
    (congrArg Line.Traits.isBlankLine (traits_spaced config style.tabStop st line)).trans
      (visible_of_isPropertyLike hproperty)
  rw [hadvance, Format.property, width_placed config style _ hvisible]
  exact hm.propertyState_column line

variable (config style st) in
/-- What is written for a line looks like the line. -/
theorem traits_advance (hvisible : Line.isBlankLine line = false) :
    Line.traits (advance config style st line).2 = Line.traits line := by
  have hend (t : Text) : Line.traits t.trimEnd = Line.traits t := by
    conv_rhs => rw [← t.trimEnd_append_endWhite]
    exact (Line.traits_white t.white_endWhite _).symm
  obtain ⟨pre, text, hpre, hspells, hparts⟩ := trimEnd_advance config style st hvisible
  rw [← hend, hparts, Line.traits_blanks hpre, hend, ← hspells.traits]
  conv_rhs => rw [← text.blanks_append_body, Line.traits_blanks text.blanks_blanks]

/-! ## What a line changes -/

variable (config) in
/-- The levels are those of the state after each line at a tab stop. -/
theorem Matches.next (hm : Matches style.tabStop st e) (ht : style.tabStop < 2 ^ 50)
    (hstop : Line.isBlankLine line = false → AtStop style line) :
    Matches style.tabStop (advance config style st line).1 (e.next style st line) := by
  obtain ⟨hlimit, -, -, hkeyframes, hpoints⟩ := codeState_frame style st line
  unfold Expected.next
  dsimp only
  cases h : treatment style st line with
  | stays => exact hm.of_sameColumns (advance_of_stays config h).1
  | header =>
    obtain ⟨hheader, hadvance⟩ := advance_of_header config h
    have hcolumn : Indent.snapColumn style.tabStop (Indent.width style.tabStop line) st.headerLimit
        (LineRole.ofLine style.tabStop st line).1.isReset = e.header style line * style.tabStop :=
      hm.snapColumn_eq ht (hstop (visible_of_isHeader hheader))
    rw [hadvance, Format.header, hlimit, hcolumn, hpoints, hm.points]
    refine ⟨?_, ?_, ?_⟩
    all_goals
      dsimp only
      split_ifs <;> simp only [Nat.succ_mul]
  | property =>
    obtain ⟨-, hadvance⟩ := advance_of_property config h
    have hplain : (LineRole.ofLine style.tabStop st line).1.isBranch = false →
        (st.inKeyframes && (LineRole.ofLine style.tabStop st line).1.isKeyframePoint) = false →
        (codeState style st line).propertyColumn = e.properties * style.tabStop := by
      intro hbranch hpoint
      rw [codeState_of_isPlain hbranch ?_, hm.properties]
      cases hin : st.inKeyframes with
      | false => simp [LineRole.ofLine, hin]
      | true => rwa [hin, Bool.true_and] at hpoint
    rw [hadvance, Format.property, propertyState]
    by_cases hglobal : (Line.isVariable line && Indent.width style.tabStop line == 0) = true
    · rw [if_pos hglobal, if_pos hglobal]
      refine ⟨(Nat.zero_mul _).symm, ?_, hpoints.trans hm.points⟩
      dsimp only [nextProperty]
      rw [hkeyframes, hpoints, hm.points]
      split_ifs <;> ring
    · rw [if_neg hglobal, if_neg hglobal]
      refine ⟨hlimit.trans hm.headers, ?_, hpoints.trans hm.points⟩
      dsimp only [nextProperty]
      rw [hkeyframes, hpoints, hlimit, hm.points, hm.headers]
      split_ifs with hbranch _ hpoint
      · ring
      · rfl
      · ring
      · exact hplain (by simpa using hbranch) (by simpa using hpoint)

end IndentedSass.Format
