/-
  Formatting a line once more.

  A formatted line is seen as the line was before (`Alike`): it has the same traits and
  the same marks.  In a state that differs from the one before only in that it may keep
  more blank lines (`Repeats`), it is therefore formatted in the same way, and it stands
  where it belongs already.

  * `Plain` is what is asked of a line; above all, trimming it must not uncover a mark;
  * `regular_advance`: a formatted line has no brace syntax, and its column can be told;
  * `advance_again`: formatting it once more changes nothing.
-/
import Mathlib
import IndentedSass.Proofs.Format.Advance

namespace IndentedSass

namespace Line

/-- A variable is no `@else`. -/
theorem isElse_of_isVariable {line : Text} (h : isVariable line = true) : isElse line = false := by
  unfold isVariable variableName? at h
  unfold isElse hasAtRule
  split at h
  · rename_i heq
    rw [heq]
    rfl
  · rename_i heq
    rw [heq]
    rfl
  · cases h

end Line

namespace Format

variable {config : FormatConfig} {style : IndentStyle} {st st' : FormatState} {role : LineRole}
  {line new : Text}

/-! ## Lines and states that are seen alike -/

/-- What is asked of a line of a text that is formatted. -/
structure Plain (config : FormatConfig) (style : IndentStyle) (line : Text) : Prop where
  /-- The line ends in no white space other than blanks. -/
  ends : EndsPlainly line
  column : Indent.width style.tabStop line < 2 ^ 50
  /-- It is no brace syntax that is converted. -/
  braces : config.convertBraces = true → Line.isBraceSyntax line false = false
  /-- It is a mark if it is one without the white space at its end. -/
  reset : config.trimTrailing = true → Line.isResetMark line.trimEnd = true →
    Line.isResetMark line = true
  ignore : config.trimTrailing = true → Line.isIgnoreMark line.trimEnd = true →
    Line.isIgnoreMark line = true

theorem plain_iff : Plain config style line ↔ EndsPlainly line ∧
    Indent.width style.tabStop line < 2 ^ 50 ∧
    (config.convertBraces = true → Line.isBraceSyntax line false = false) ∧
    (config.trimTrailing = true → Line.isResetMark line.trimEnd = true →
      Line.isResetMark line = true) ∧
    (config.trimTrailing = true → Line.isIgnoreMark line.trimEnd = true →
      Line.isIgnoreMark line = true) :=
  ⟨fun h => ⟨h.ends, h.column, h.braces, h.reset, h.ignore⟩,
    fun ⟨ends, column, braces, reset, ignore⟩ => ⟨ends, column, braces, reset, ignore⟩⟩

instance (config : FormatConfig) (style : IndentStyle) (line : Text) :
    Decidable (Plain config style line) := decidable_of_iff' _ plain_iff

theorem Plain.regular (h : Plain config style line) : Regular config style line :=
  ⟨h.ends, .inl h.column, h.braces⟩

/-- The line `new` is seen as `line` was. -/
structure Alike (line new : Text) : Prop where
  traits : Line.traits new = Line.traits line
  reset : Line.isResetMark new = Line.isResetMark line
  ignore : Line.isIgnoreMark new = Line.isIgnoreMark line
  space : Line.isSpaceMark line = true → Line.isSpaceMark new = true

/-- The state `st'` is `st`, but it may keep more blank lines. -/
def Repeats (st st' : FormatState) : Prop :=
  ∃ keep, (st.keepBlanks = true → keep = true) ∧ st' = { st with keepBlanks := keep }

theorem Repeats.rfl (st : FormatState) : Repeats st st := ⟨st.keepBlanks, id, Eq.refl st⟩

theorem Repeats.settled {tab : Nat} (h : Repeats st st') (hst : Settled tab st) :
    Settled tab st' := by
  obtain ⟨keep, -, rfl⟩ := h
  exact hst.withFlags _ _ keep

/-- A line that is no comment is no mark. -/
theorem isMark_of_traits (h : Line.traits new = Line.traits line)
    (hcomment : Line.isLineComment line = false) (mark : Char) : Line.isMark mark new = false := by
  refine Bool.eq_false_iff.2 fun hmark => ?_
  have hline := Line.isLineComment_of_isMark hmark
  rw [show Line.isLineComment new = _ from congrArg Line.Traits.isLineComment h] at hline
  rw [show (Line.traits line).isLineComment = _ from hcomment] at hline
  cases hline

theorem alike_of_traits (h : Line.traits new = Line.traits line)
    (hcomment : Line.isLineComment line = false) : Alike line new := by
  have hnew := isMark_of_traits h hcomment
  have hline := isMark_of_traits (Eq.refl (Line.traits line)) hcomment
  refine ⟨h, ?_, ?_, fun hspace => ?_⟩
  · rw [Line.isResetMark, Line.isResetMark, hnew, hline]
  · rw [Line.isIgnoreMark, Line.isIgnoreMark, hnew, hline]
  · rw [Line.isSpaceMark, hline] at hspace
    cases hspace

/-- A mark stays that mark and becomes no other one. -/
theorem alike_of_isResetMark (h : Line.traits new = Line.traits line)
    (hline : Line.isResetMark line = true) (hnew : Line.isResetMark new = true) :
    Alike line new := by
  have hother : ∀ {l : Text}, Line.isResetMark l = true → ∀ mark ≠ 'R', Line.isMark mark l = false :=
    fun hreset mark hne => Bool.eq_false_iff.2 fun hmark => hne (Line.isMark_unique hmark hreset)
  refine ⟨h, hnew.trans hline.symm, ?_, fun hspace => ?_⟩
  · rw [Line.isIgnoreMark, Line.isIgnoreMark, hother hline 'I' (by decide),
      hother hnew 'I' (by decide)]
  · rw [Line.isSpaceMark, hother hline 'S' (by decide)] at hspace
    cases hspace

/-! ## Trimmed lines -/

variable (config) in
theorem trimmed_spec (line : Text) : ∃ ws, White ws ∧ line = trimmed config line ++ ws := by
  unfold trimmed
  split
  · exact Text.exists_white line
  · exact ⟨[], by simp [White], (List.append_nil line).symm⟩

theorem trimmed_trimmed (line : Text) : trimmed config (trimmed config line) = trimmed config line := by
  unfold trimmed
  split
  · exact Text.trimEnd_trimEnd line
  · rfl

theorem traits_trimmed (line : Text) : Line.traits (trimmed config line) = Line.traits line := by
  obtain ⟨ws, hw, hline⟩ := trimmed_spec config line
  conv_rhs => rw [hline]
  exact (Line.traits_white hw _).symm

theorem isMark_trimmed {mark : Char} (hmark : isWhite mark = false)
    (h : Line.isMark mark line = true) : Line.isMark mark (trimmed config line) = true := by
  obtain ⟨ws, hw, hline⟩ := trimmed_spec config line
  rw [hline] at h
  exact Line.isMark_of_white hmark hw h

theorem alike_trimmed (hline : Plain config style line) : Alike line (trimmed config line) := by
  refine ⟨traits_trimmed line, Bool.eq_iff_iff.2 ⟨fun h => ?_, isMark_trimmed (by decide)⟩,
    Bool.eq_iff_iff.2 ⟨fun h => ?_, isMark_trimmed (by decide)⟩, isMark_trimmed (by decide)⟩
  · unfold trimmed at h
    split at h
    · exact hline.reset ‹_› h
    · exact h
  · unfold trimmed at h
    split at h
    · exact hline.ignore ‹_› h
    · exact h

theorem width_append_le (tab : Nat) (s t : Text) : Indent.width tab s ≤ Indent.width tab (s ++ t) := by
  induction s with
  | nil => exact Nat.zero_le _
  | cons c s ih =>
    simp only [List.cons_append, Indent.width]
    split_ifs <;> omega

/-! ## Lines that are seen alike are formatted alike -/

theorem ofLine_again (halike : Alike line new) (hst : Repeats st st') (tab : Nat) :
    (LineRole.ofLine tab st' new).1 = (LineRole.ofLine tab st line).1 ∧
      Repeats (LineRole.ofLine tab st line).2 (LineRole.ofLine tab st' new).2 := by
  obtain ⟨keep, hkeep, rfl⟩ := hst
  rw [ofLine_congr halike.traits halike.reset]
  exact ⟨rfl, keep, hkeep, rfl⟩

variable (style) in
theorem codeState_again (halike : Alike line new) (hst : Repeats st st') :
    Repeats (codeState style st line) (codeState style st' new) := by
  obtain ⟨-, keep, hkeep, hstate⟩ := ofLine_again halike hst style.tabStop
  unfold codeState
  dsimp only
  rw [hstate]
  by_cases hspace : Line.isSpaceMark line = true
  · rw [if_pos hspace, if_pos (halike.space hspace)]
    exact ⟨true, fun _ => rfl, rfl⟩
  · rw [if_neg hspace]
    split
    · exact ⟨true, fun _ => rfl, rfl⟩
    · exact ⟨keep, hkeep, rfl⟩

/-- A header that stands on its tab stop stays there. -/
theorem header_again (ht : style.tabStop < 2 ^ 50) (hline : Plain config style line)
    (hvisible : Line.isBlankLine line = false) (hstop : style.tabStop ∣ st.headerLimit)
    (hst : Repeats st st') :
    header config style role st' (header config style role st line).2 =
      header config style role st line := by
  obtain ⟨keep, -, rfl⟩ := hst
  simp only [header, width_placed config style _ hvisible, placed_placed config style _ hvisible,
    Indent.snapColumn_snapColumn style.tabStop_pos ht hline.column hstop]

/-- A variable that was moved to column zero is global, as it was before or as the
    column zero of the properties says. -/
theorem propertyState_again (hnew : Line.isVariable new = Line.isVariable line)
    (hwidth : Indent.width style.tabStop new = (propertyState style st line).propertyColumn)
    (hbase : Line.isVariable line = true → st.propertyColumn = 0 → st.headerLimit = 0)
    (hst : Repeats st st') :
    Repeats (propertyState style st line) (propertyState style st' new) := by
  obtain ⟨keep, hkeep, rfl⟩ := hst
  refine ⟨keep, ?_, ?_⟩
  · unfold propertyState
    split <;> exact hkeep
  by_cases hglobal : (Line.isVariable line && Indent.width style.tabStop line == 0) = true
  · have hline : propertyState style st line = { st with propertyColumn := 0, headerLimit := 0 } :=
      if_pos hglobal
    rw [hline] at hwidth ⊢
    rw [propertyState, if_pos]
    rw [hnew, (Bool.and_eq_true_iff.1 hglobal).1, hwidth]
    rfl
  have hline : propertyState style st line = st := if_neg hglobal
  rw [hline] at hwidth ⊢
  unfold propertyState
  split
  · rename_i hzero
    rw [hnew, hwidth, Bool.and_eq_true, beq_iff_eq] at hzero
    rw [hzero.2, hbase hzero.1 hzero.2]
  · rfl

/-- A property-like line that stands in its column stays as it is. -/
theorem property_again (hvisible : Line.isBlankLine (spaced config role line) = false)
    (hspaced : Line.traits (spaced config role line) = Line.traits line)
    (hbase : Line.isVariable line = true → st.propertyColumn = 0 → st.headerLimit = 0)
    (hst : Repeats st st') :
    (property config style role st' (property config style role st line).2).2 =
        (property config style role st line).2 ∧
      Repeats (property config style role st line).1
        (property config style role st' (property config style role st line).2).1 := by
  have hnew : (property config style role st line).2 = placed config style
      (propertyState style st line).propertyColumn (spaced config role line) := rfl
  have hwidth := width_placed config style (propertyState style st line).propertyColumn hvisible
  have htraits := (traits_placed config style (propertyState style st line).propertyColumn
    hvisible).trans hspaced
  have hagain := placed_placed config style (propertyState style st line).propertyColumn hvisible
  have hspace := hasSpaceAfterColon_placed config style
    (propertyState style st line).propertyColumn hvisible
  rw [hnew]
  generalize placed config style (propertyState style st line).propertyColumn
    (spaced config role line) = new at *
  obtain ⟨keep, hkeep, hstate⟩ := propertyState_again
    (show Line.isVariable new = Line.isVariable line from congrArg Line.Traits.isVariable htraits)
    hwidth hbase hst
  -- the space after the colon is there already
  have hsame : spaced config role new = new := by
    unfold spaced at hspace ⊢
    split
    · rw [if_pos ‹_›, Line.hasSpaceAfterColon_spaceAfterColon] at hspace
      exact Line.spaceAfterColon_of_hasSpace hspace
    · rfl
  refine ⟨?_, keep, ?_, ?_⟩
  · simp only [property, hstate, hsame]
    exact hagain
  · exact hkeep
  · simp only [property, hstate, nextProperty]

/-! ## A step once more -/

theorem alike_header (hvisible : Line.isBlankLine line = false) {tab : Nat} (column : Nat)
    (hheader : (LineRole.ofLine tab st line).1.isHeader line = true) :
    Alike line (placed config style column line) := by
  have htraits := traits_placed config style column hvisible
  cases hreset : Line.isResetMark line with
  | true => exact alike_of_isResetMark htraits hreset (isMark_placed (by decide) hvisible hreset)
  | false =>
    -- only a comment that is a reset mark is a header
    refine alike_of_traits htraits (Bool.eq_false_iff.2 fun hcomment => ?_)
    have hinert := Line.isInert_of_isComment (show Line.isComment line = true by
      rw [Line.isComment, hcomment, Bool.true_or])
    rw [ofLine_of_isInert hinert, isHeader_of_isInert hinert, hreset] at hheader
    cases hheader

theorem alike_property {tab : Nat} (column : Nat)
    (hproperty : (LineRole.ofLine tab st line).1.isPropertyLike line = true) :
    Alike line (placed config style column
      (spaced config (LineRole.ofLine tab st line).1 line)) := by
  have hcomment := notComment_of_isPropertyLike hproperty
  have hspaced := traits_spaced config tab st line
  have hvisible : Line.isBlankLine (spaced config (LineRole.ofLine tab st line).1 line) = false :=
    (congrArg Line.Traits.isBlankLine hspaced).trans (visible_of_isPropertyLike hproperty)
  rw [Line.isComment, Bool.or_eq_false_iff] at hcomment
  exact alike_of_traits ((traits_placed config style column hvisible).trans hspaced) hcomment.1

variable (st) in
/-- A formatted line is seen as it was before. -/
theorem alike_advance (hline : Plain config style line) :
    Alike line (advance config style st line).2 := by
  have htrimmed := alike_trimmed hline
  unfold advance
  split
  · exact ⟨rfl, rfl, rfl, id⟩
  split
  · exact htrimmed
  split
  · exact htrimmed
  split
  · exact htrimmed
  unfold advanceCode
  dsimp only
  split_ifs with hheader hproperty
  · exact alike_header (visible_of_isHeader hheader) _ hheader
  · exact alike_property _ hproperty
  · exact htrimmed

/-- A line that is seen as another one is formatted in the way of that one. -/
theorem advanceCode_alike (halike : Alike line new) (hrep : Repeats st st') :
    advanceCode config style st' new =
      if (LineRole.ofLine style.tabStop st line).1.isHeader line then
        header config style (LineRole.ofLine style.tabStop st line).1 (codeState style st' new) new
      else if (LineRole.ofLine style.tabStop st line).1.isPropertyLike line then
        property config style (LineRole.ofLine style.tabStop st line).1 (codeState style st' new) new
      else (codeState style st' new, trimmed config new) := by
  obtain ⟨hrole, -⟩ := ofLine_again halike hrep style.tabStop
  unfold advanceCode
  dsimp only
  rw [hrole, isHeader_congr halike.traits, isPropertyLike_congr halike.traits]

/-- Where a variable goes to column zero, there is no room for nested headers. -/
theorem Settled.variable_base (hst : Settled style.tabStop st)
    (hvariable : Line.isVariable line = true)
    (hzero : (codeState style st line).propertyColumn = 0) :
    (codeState style st line).headerLimit = 0 := by
  have htab := style.tabStop_pos
  have hbase := hst.base
  have hkeyframes := hst.keyframes
  rw [codeState_propertyColumn, Line.isElse_of_isVariable hvariable, Bool.and_false,
    if_neg Bool.false_ne_true] at hzero
  rw [(codeState_frame style st line).1]
  split_ifs at hzero with hbranch hpoint
  · omega
  · rw [Bool.and_eq_true] at hpoint
    have := hkeyframes hpoint.1
    omega
  · exact hbase hzero

theorem advanceCode_again (ht : style.tabStop < 2 ^ 50) (hst : Settled style.tabStop st)
    (hline : Plain config style line) (halike : Alike line (advanceCode config style st line).2)
    (hrep : Repeats st st') :
    (advanceCode config style st' (advanceCode config style st line).2).2 =
        (advanceCode config style st line).2 ∧
      Repeats (advanceCode config style st line).1
        (advanceCode config style st' (advanceCode config style st line).2).1 := by
  have hcode := codeState_again style halike hrep
  obtain ⟨hlimit, -⟩ := codeState_frame style st line
  rw [advanceCode_alike halike hrep]
  by_cases hheader : (LineRole.ofLine style.tabStop st line).1.isHeader line = true
  · have hline' : advanceCode config style st line = header config style
        (LineRole.ofLine style.tabStop st line).1 (codeState style st line) line := if_pos hheader
    rw [if_pos hheader]
    rw [hline'] at hcode ⊢
    rw [header_again ht hline (visible_of_isHeader hheader) (hlimit ▸ hst.limit_dvd) hcode]
    exact ⟨rfl, .rfl _⟩
  rw [if_neg hheader]
  by_cases hproperty : (LineRole.ofLine style.tabStop st line).1.isPropertyLike line = true
  · have hline' : advanceCode config style st line = property config style
        (LineRole.ofLine style.tabStop st line).1 (codeState style st line) line :=
      (if_neg hheader).trans (if_pos hproperty)
    rw [if_pos hproperty]
    rw [hline'] at hcode ⊢
    have hspaced := traits_spaced config style.tabStop st line
    exact property_again ((congrArg Line.Traits.isBlankLine hspaced).trans
      (visible_of_isPropertyLike hproperty)) hspaced hst.variable_base hcode
  · have hline' : advanceCode config style st line = (codeState style st line, trimmed config line) :=
      (if_neg hheader).trans (if_neg hproperty)
    rw [if_neg hproperty]
    rw [hline'] at hcode ⊢
    exact ⟨trimmed_trimmed line, hcode⟩

/-- Formatting a formatted line once more changes nothing. -/
theorem advance_again (ht : style.tabStop < 2 ^ 50) (hst : Settled style.tabStop st)
    (hline : Plain config style line) (hrep : Repeats st st') :
    (advance config style st' (advance config style st line).2).2 =
        (advance config style st line).2 ∧
      Repeats (advance config style st line).1
        (advance config style st' (advance config style st line).2).1 := by
  have halike := alike_advance st hline
  obtain ⟨ws, hw, hsplit⟩ := trimmed_spec config line
  obtain ⟨keep, hkeep, hst'⟩ := hrep
  have hignore' : st'.ignoreNext = st.ignoreNext := by rw [hst']
  have hcomment' : st'.inBlockComment = st.inBlockComment := by rw [hst']
  by_cases hignore : st.ignoreNext = true
  · have hline' : advance config style st line = ({ st with ignoreNext := false }, line) :=
      if_pos hignore
    rw [hline', advance, if_pos (hignore'.trans hignore), hst']
    exact ⟨rfl, keep, hkeep, rfl⟩
  by_cases hcomment : st.inBlockComment = true
  · have hline' : advance config style st line = ({ st with
        inBlockComment := !Line.closesBlockComment line }, trimmed config line) :=
      (if_neg hignore).trans (if_pos hcomment)
    have hcloses : Line.closesBlockComment (trimmed config line) = Line.closesBlockComment line := by
      conv_rhs => rw [hsplit]
      exact (Line.closesBlockComment_white hw _).symm
    rw [hline', advance, if_neg (hignore' ▸ hignore), if_pos (hcomment'.trans hcomment), hcloses, hst']
    exact ⟨trimmed_trimmed line, keep, hkeep, rfl⟩
  have hopens' : Line.opensBlockComment (advance config style st line).2 =
      Line.opensBlockComment line := congrArg Line.Traits.opensBlockComment halike.traits
  by_cases hopens : Line.opensBlockComment line = true
  · have hline' : advance config style st line = ({ st with
        inBlockComment := Line.leavesCommentOpen line }, trimmed config line) :=
      (if_neg hignore).trans ((if_neg hcomment).trans (if_pos hopens))
    have hleaves : Line.leavesCommentOpen (trimmed config line) = Line.leavesCommentOpen line := by
      conv_rhs => rw [hsplit]
      exact (Line.leavesCommentOpen_white hw _).symm
    rw [hline'] at hopens' ⊢
    rw [advance, if_neg (hignore' ▸ hignore), if_neg (hcomment' ▸ hcomment),
      if_pos (hopens'.trans hopens), hleaves, hst']
    exact ⟨trimmed_trimmed line, keep, hkeep, rfl⟩
  by_cases hmark : Line.isIgnoreMark line = true
  · have hline' : advance config style st line =
        ({ st with ignoreNext := true }, trimmed config line) :=
      (if_neg hignore).trans ((if_neg hcomment).trans ((if_neg hopens).trans (if_pos hmark)))
    have hmark' := halike.ignore.trans hmark
    rw [hline'] at hopens' hmark' ⊢
    rw [advance, if_neg (hignore' ▸ hignore), if_neg (hcomment' ▸ hcomment),
      if_neg (hopens' ▸ hopens), if_pos hmark', hst']
    exact ⟨trimmed_trimmed line, keep, hkeep, rfl⟩
  · have hline' : advance config style st line = advanceCode config style st line :=
      (if_neg hignore).trans ((if_neg hcomment).trans ((if_neg hopens).trans (if_neg hmark)))
    have hmark' := halike.ignore
    rw [hline'] at hopens' hmark' halike ⊢
    rw [advance, if_neg (hignore' ▸ hignore), if_neg (hcomment' ▸ hcomment),
      if_neg (hopens' ▸ hopens), if_neg (hmark' ▸ hmark)]
    exact advanceCode_again ht hst hline halike ⟨keep, hkeep, hst'⟩

/-! ## What a formatted line is -/

theorem mem_of_mem_spaced {c : Char} (h : c ∈ spaced config role line) :
    isBlank c = true ∨ c ∈ line := by
  unfold spaced at h
  split at h
  · cases hspace : Line.hasSpaceAfterColon line with
    | true => exact .inr (Line.spaceAfterColon_of_hasSpace hspace ▸ h)
    | false =>
      obtain ⟨name, a, rest, -, -, -, hbody, hnew⟩ := Line.spaceAfterColon_spec hspace
      rw [hnew] at h
      rw [← line.blanks_append_body, hbody]
      simp only [List.mem_append, List.mem_cons] at h ⊢
      rcases h with h | h | h | rfl | h | h
      · exact .inr (.inl h)
      · exact .inr (.inr (.inl h))
      · exact .inr (.inr (.inr (.inl h)))
      · exact .inl (by decide)
      · exact .inr (.inr (.inr (.inr (.inl h))))
      · exact .inr (.inr (.inr (.inr (.inr h))))
  · exact .inr h

/-- A formatted line is the line it was, or a trimmed one, or it was put into a column. -/
theorem advance_cases (hst : Settled style.tabStop st) (ht : style.tabStop < 2 ^ 50)
    (hline : Plain config style line) :
    (advance config style st line).2 = line ∨
      (advance config style st line).2 = trimmed config line ∨
      ∃ column text, (advance config style st line).2 = placed config style column text ∧
        Indent.Exact style.tabStop column ∧ Line.isBlankLine text = false ∧ EndsPlainly text ∧
        ∀ c ∈ text, isBlank c = true ∨ c ∈ line := by
  obtain ⟨hlimit, -⟩ := codeState_frame style st line
  unfold advance
  split
  · exact .inl rfl
  split
  · exact .inr (.inl rfl)
  split
  · exact .inr (.inl rfl)
  split
  · exact .inr (.inl rfl)
  unfold advanceCode
  dsimp only
  split_ifs with hheader hproperty
  · have hle := Indent.snapColumn_le (codeState style st line).headerLimit
      (LineRole.ofLine style.tabStop st line).1.isReset style.tabStop_pos ht (.inl hline.column)
    have hcolumn := hline.column
    exact .inr (.inr ⟨_, line, rfl, .inr ⟨Indent.dvd_snapColumn _ _ (hlimit ▸ hst.limit_dvd),
      by omega⟩, visible_of_isHeader hheader, hline.ends, fun c hc => .inr hc⟩)
  · refine .inr (.inr ⟨_, _, rfl, ?_, ?_, ?_, ?_⟩)
    · unfold propertyState
      split
      · exact .inl (Nat.two_pow_pos 50)
      · exact .inr (hst.codeState_stop line)
    · exact (congrArg Line.Traits.isBlankLine (traits_spaced config ..)).trans
        (visible_of_isPropertyLike hproperty)
    · unfold EndsPlainly
      rw [(spaced_spec config style _ line).2]
      exact hline.ends
    · exact fun c hc => mem_of_mem_spaced hc
  · exact .inr (.inl rfl)

theorem regular_advance (ht : style.tabStop < 2 ^ 50) (hst : Settled style.tabStop st)
    (hline : Plain config style line) : Regular config style (advance config style st line).2 := by
  refine ⟨?_, ?_, fun hconfig => ?_⟩
  · rcases advance_cases hst ht hline with h | h | ⟨column, text, h, -, hvisible, hends, -⟩
    · rw [h]
      exact hline.ends
    · rw [h]
      unfold trimmed
      split
      · exact Text.endsPlainly_trimEnd line
      · exact hline.ends
    · exact h ▸ endsPlainly_placed hvisible hends
  · rcases advance_cases hst ht hline with h | h | ⟨column, text, h, hexact, hvisible, -, -⟩
    · rw [h]
      exact .inl hline.column
    · obtain ⟨ws, -, hsplit⟩ := trimmed_spec config line
      have hle := width_append_le style.tabStop (trimmed config line) ws
      rw [← hsplit] at hle
      exact h ▸ .inl (Nat.lt_of_le_of_lt hle hline.column)
    · rwa [h, width_placed config style column hvisible]
  · exact (congrArg Line.Traits.isBraceSyntax (alike_advance st hline).traits).trans
      (hline.braces hconfig)

/-- Nothing but blanks is added to a line. -/
theorem mem_of_mem_advance (ht : style.tabStop < 2 ^ 50) (hst : Settled style.tabStop st)
    (hline : Plain config style line) {c : Char} (h : c ∈ (advance config style st line).2) :
    isBlank c = true ∨ c ∈ line := by
  rcases advance_cases hst ht hline with hnew | hnew | ⟨column, text, hnew, -, hvisible, -, hmem⟩
  · exact .inr (hnew ▸ h)
  · obtain ⟨ws, -, hsplit⟩ := trimmed_spec config line
    rw [hnew] at h
    rw [hsplit]
    exact .inr (List.mem_append_left ws h)
  · rw [hnew] at h
    rcases mem_of_mem_placed hvisible h with hblank | htext
    · exact .inl hblank
    · exact hmem c htext

end Format

end IndentedSass
