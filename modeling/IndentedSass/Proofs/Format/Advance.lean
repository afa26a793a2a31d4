/-
  Formatting line by line, without edits.

  Where no brace syntax is converted, formatting a line is a step that takes a state
  and a line to the next state and the new line; apart from that, blank lines may be
  dropped.

  * `Format.advance` is that step, `Format.drops` tells which lines are dropped;
  * `Format.Settled` is what holds of every state on the way: headers are limited to tab
    stops, and properties at column zero come with no room for nested headers
    (`Settled.advance`);
  * `Format.formatLine_writes`: formatting a line is that step, but that white space may
    stay at the end of the line (`Format.Writes`); `Format.formatLine_eq` says when none
    does.
-/
import Mathlib
import IndentedSass.Proofs.Format.Placing

namespace IndentedSass.Format

variable {config : FormatConfig} {style : IndentStyle} {st : FormatState} {role : LineRole}
  {line text : Text} {index column : Nat} {next? : Option Text}

/-! ## The step -/

/-- The header of a block: the state after it and its new line. -/
def header (config : FormatConfig) (style : IndentStyle) (role : LineRole) (st : FormatState)
    (line : Text) : FormatState × Text :=
  let column := Indent.snapColumn style.tabStop (Indent.width style.tabStop line) st.headerLimit
    role.isReset
  let next := if role.isReset then column else column + style.tabStop
  ({ st with
      propertyColumn := next
      headerLimit := next
      inKeyframes := role.isKeyframes
      keyframeColumn := if role.isKeyframes then column + style.tabStop else st.keyframeColumn
      keepBlanks := false },
    placed config style column line)

/-- The state in which a property-like line is formatted: a variable at column zero ends
    the last block. -/
def propertyState (style : IndentStyle) (st : FormatState) (line : Text) : FormatState :=
  if Line.isVariable line && Indent.width style.tabStop line == 0 then
    { st with propertyColumn := 0, headerLimit := 0 }
  else st

/-- A declaration with the space after its colon, when that is asked for. -/
def spaced (config : FormatConfig) (role : LineRole) (line : Text) : Text :=
  if role.isDeclaration && config.spaceAfterColon then Line.spaceAfterColon line else line

/-- The column of the properties after a property-like line. -/
def nextProperty (style : IndentStyle) (role : LineRole) (st : FormatState) : Nat :=
  if role.isBranch then
    if st.inKeyframes then st.keyframeColumn + style.tabStop * 2 else st.headerLimit
  else if st.inKeyframes && role.isKeyframePoint then st.keyframeColumn + style.tabStop
  else st.propertyColumn

/-- A property-like line: the state after it and its new line. -/
def property (config : FormatConfig) (style : IndentStyle) (role : LineRole) (st : FormatState)
    (line : Text) : FormatState × Text :=
  let st := propertyState style st line
  ({ st with propertyColumn := nextProperty style role st },
    placed config style st.propertyColumn (spaced config role line))

/-- The state in which a line of code is formatted. -/
def codeState (style : IndentStyle) (st : FormatState) (line : Text) : FormatState :=
  let st := (LineRole.ofLine style.tabStop st line).2
  if Line.isSpaceMark line then { st with keepBlanks := true } else st

/-- A line of code. -/
def advanceCode (config : FormatConfig) (style : IndentStyle) (st : FormatState) (line : Text) :
    FormatState × Text :=
  let role := (LineRole.ofLine style.tabStop st line).1
  let st := codeState style st line
  if role.isHeader line then header config style role st line
  else if role.isPropertyLike line then property config style role st line
  else (st, trimmed config line)

/-- A line: the state after it and its new line, unless it is dropped. -/
def advance (config : FormatConfig) (style : IndentStyle) (st : FormatState) (line : Text) :
    FormatState × Text :=
  if st.ignoreNext then ({ st with ignoreNext := false }, line)
  else if st.inBlockComment then
    ({ st with inBlockComment := !Line.closesBlockComment line }, trimmed config line)
  else if Line.opensBlockComment line then
    ({ st with inBlockComment := Line.leavesCommentOpen line }, trimmed config line)
  else if Line.isIgnoreMark line then ({ st with ignoreNext := true }, trimmed config line)
  else advanceCode config style st line

/-- Whether a line is dropped before the line `next?`. -/
def drops (config : FormatConfig) (st : FormatState) (line : Text) (next? : Option Text) : Bool :=
  !st.ignoreNext && !st.inBlockComment && Line.isBlankLine line &&
    next?.any (isRedundantBefore config st)

/-! ## The edits of a step -/

theorem replaceLine_self (index : Nat) (line : Text) : replaceLine index line line = none := by
  simp [replaceLine]

theorem trimLine_eq (config : FormatConfig) (st : FormatState) (index : Nat) (line : Text) :
    (trimLine config st index line).state = st ∧
      (trimLine config st index line).edit? = replaceLine index line (trimmed config line) := by
  unfold trimLine trimmed
  by_cases htrim : config.trimTrailing = true
  · by_cases hline : line.trimEnd = line
    · simp [htrim, hline, replaceLine_self]
    · simp [htrim, hline]
  · simp [htrim, replaceLine_self]

/-- What a line that moves to a column becomes. -/
theorem newText?_eq {offset : Int} {how : LineChange} (moved : FormatEvent)
    (hoffset : offset = (column : Int) - Indent.width style.tabStop text)
    (hsame : how.any = false → text = line)
    (hends : ¬0 < Indent.trailingWidth style.tabStop line → Text.trimEnd text = text) :
    ((newText? config style index line text offset how moved).map Prod.fst).getD line =
      if Indent.width style.tabStop text = column then trimmed config text
      else (Indent.ofColumn style column ++ text.body).trimEnd := by
  unfold newText? trimmed
  by_cases hcolumn : Indent.width style.tabStop text = column
  · rw [if_neg (by omega), if_pos hcolumn]
    by_cases htrim : config.trimTrailing = true
    · by_cases hwidth : 0 < Indent.trailingWidth style.tabStop line
      · simp [hwidth, htrim]
      · rw [if_neg (by simp [hwidth]), if_pos htrim, hends hwidth]
        by_cases hany : how.any = true
        · simp [hany]
        · simp [hany, hsame (by simpa using hany)]
    · rw [if_neg (by simp [htrim]), if_neg htrim]
      by_cases hany : how.any = true
      · simp [hany]
      · simp [hany, hsame (by simpa using hany)]
  · have hto : ((Indent.width style.tabStop text : Int) + offset).toNat = column := by omega
    rw [if_pos (by omega), if_neg hcolumn, reindent, hto]
    rfl

/-- A result whose text is the new text of a line, if there is one. -/
theorem ofNewText?_eq {next : FormatState} {new? : Option (Text × FormatEvent)} :
    (match new? with
      | none => (⟨next, none, []⟩ : LineResult)
      | some (newText, event) => ⟨next, replaceLine index line newText, [event]⟩).state = next ∧
    (match new? with
      | none => (⟨next, none, []⟩ : LineResult)
      | some (newText, event) => ⟨next, replaceLine index line newText, [event]⟩).edit? =
        replaceLine index line ((new?.map Prod.fst).getD line) := by
  cases new? with
  | none => exact ⟨rfl, (replaceLine_self index line).symm⟩
  | some new => exact ⟨rfl, rfl⟩

/-- `new` is `target`, with the white space at the end of `line` or none. -/
def Trims (line target new : Text) : Prop :=
  new = target.trimEnd ∨ new = target.trimEnd ++ line.endWhite

/-- What is written for a line that is to become `target`. -/
structure Writes (line target new : Text) : Prop where
  trims : Trims line target new
  /-- Where the line ends in blanks only, nothing else is written. -/
  plain : EndsPlainly line → new = target

theorem Writes.refl (line : Text) : Writes line line line :=
  ⟨.inr line.trimEnd_append_endWhite.symm, fun _ => rfl⟩

variable (config) in
theorem writes_trimmed (line : Text) : Writes line (trimmed config line) (trimmed config line) := by
  refine ⟨?_, fun _ => rfl⟩
  unfold trimmed
  split
  · exact .inl (Text.trimEnd_trimEnd line).symm
  · exact .inr line.trimEnd_append_endWhite.symm

theorem trimEnd_trimmed (config : FormatConfig) (text : Text) :
    (trimmed config text).trimEnd = text.trimEnd := by
  unfold trimmed
  split
  · exact Text.trimEnd_trimEnd text
  · rfl

theorem trimmed_eq_self (config : FormatConfig) {text : Text} (h : text.trimEnd = text) :
    trimmed config text = text := by
  unfold trimmed
  split
  · exact h
  · rfl

/-- A line is moved as it is to be, but white space at its end may stay. -/
theorem writes_newText? {offset : Int} {how : LineChange} (moved : FormatEvent)
    (hoffset : offset = (column : Int) - Indent.width style.tabStop text)
    (hsame : how.any = false → text = line) (hends : text.endWhite = line.endWhite) :
    Writes line
      (if Indent.width style.tabStop text = column then trimmed config text
        else (Indent.ofColumn style column ++ text.body).trimEnd)
      (((newText? config style index line text offset how moved).map Prod.fst).getD line) := by
  refine ⟨?_, fun hplain => newText?_eq moved hoffset hsame fun htrailing => ?_⟩
  · have hkept : text = text.trimEnd ++ line.endWhite := by
      rw [← hends, Text.trimEnd_append_endWhite]
    by_cases hcolumn : Indent.width style.tabStop text = column
    · rw [if_pos hcolumn, newText?, if_neg (by omega : ¬offset ≠ 0), Trims, trimEnd_trimmed]
      split_ifs with htrim hany
      · exact .inl rfl
      · exact .inr hkept
      · rw [hsame (by simpa using hany)] at hkept ⊢
        exact .inr hkept
    · have hto : ((Indent.width style.tabStop text : Int) + offset).toNat = column := by omega
      rw [if_neg hcolumn, newText?, if_pos (by omega : offset ≠ 0), reindent, hto]
      exact .inl (Text.trimEnd_trimEnd _).symm
  · have hline := Text.trimEnd_of_trailingWidth style.tabStop_pos hplain htrailing
    rw [← Text.endWhite_eq_nil_iff, hends, Text.endWhite_eq_nil_iff]
    exact hline

/-- The conditions on a line under which columns are exact and brace syntax is left
    alone. -/
structure Regular (config : FormatConfig) (style : IndentStyle) (line : Text) : Prop where
  /-- The line ends in no white space other than blanks. -/
  ends : EndsPlainly line
  /-- Its column can be told. -/
  column : Indent.Exact style.tabStop (Indent.width style.tabStop line)
  /-- It is not converted. -/
  braces : config.convertBraces = true → Line.isBraceSyntax line false = false

theorem formatHeader_writes (ht : style.tabStop < 2 ^ 50)
    (hexact : Indent.Exact style.tabStop (Indent.width style.tabStop line))
    (hvisible : Line.isBlankLine line = false) (hl : st.headerLimit < 2 ^ 63)
    (hplain : st.afterBraces = false) (hselector : st.lastSelector = [])
    (hconverts : converts config st line = false) :
    (formatHeader config style role st index line).state = (header config style role st line).1 ∧
      ∃ new, (formatHeader config style role st index line).edit? = replaceLine index line new ∧
        Writes line (header config style role st line).2 new := by
  have hsnap := Indent.snapOffset_eq style.tabStop_pos ht hexact hl role.isReset
  have hcolumn : ((Indent.width style.tabStop line : Int) + Indent.snapOffset style.tabStop
      (Indent.width style.tabStop line) st.headerLimit role.isReset).toNat = Indent.snapColumn
        style.tabStop (Indent.width style.tabStop line) st.headerLimit role.isReset := by omega
  obtain ⟨pre, hpre, -, hwidth, -⟩ := withNormalIndent_spec config style line
  unfold formatHeader
  simp only [hconverts, Bool.false_eq_true, if_false, hselector, ite_self, ruleLines,
    List.flatMap_nil, List.append_nil, Int.add_zero, hcolumn]
  refine ⟨ofNewText?_eq.1.trans ?_, _, ofNewText?_eq.2, ?_⟩
  · simp only [header, hplain, hselector]
  · rw [header, placed_eq]
    refine writes_newText? _ ?_ ?_ (endWhite_withNormalIndent hvisible)
    · rw [hsnap, hpre, hwidth]
    · intro hany
      unfold withNormalIndent at hany ⊢
      split at hany
      · cases hany
      · rw [if_neg ‹_›]

/-- The space is put before the last character. -/
theorem endWhite_spaceAfterColon (line : Text) :
    (Line.spaceAfterColon line).endWhite = line.endWhite := by
  cases h : Line.hasSpaceAfterColon line with
  | true => rw [Line.spaceAfterColon_of_hasSpace h]
  | false =>
    obtain ⟨name, c, rest, -, -, hc, hbody, hspaced⟩ := Line.spaceAfterColon_spec h
    have hvisible : Text.trimEnd (c :: rest) ≠ [] := by
      intro hnil
      have hsplit := Text.trimEnd_append_endWhite (c :: rest)
      rw [hnil, List.nil_append] at hsplit
      have hwhite := Text.white_endWhite (c :: rest) c (by rw [hsplit]; exact List.mem_cons_self)
      rw [hc] at hwhite
      cases hwhite
    have hcut : ∀ pre : Text, Text.endWhite (pre ++ c :: rest) = Text.endWhite (c :: rest) :=
      fun pre => Text.endWhite_append hvisible
    conv_rhs => rw [← line.blanks_append_body, hbody]
    simpa [hspaced] using (hcut (line.blanks ++ (name ++ [':', ' ']))).trans
      (hcut (line.blanks ++ (name ++ [':']))).symm

/-- The space after the colon changes neither end of a line. -/
theorem spaced_spec (config : FormatConfig) (style : IndentStyle) (role : LineRole) (line : Text) :
    Indent.width style.tabStop (spaced config role line) = Indent.width style.tabStop line ∧
      (spaced config role line).getLast? = line.getLast? := by
  unfold spaced
  split
  · exact ⟨Line.width_spaceAfterColon .., Line.getLast?_spaceAfterColon line⟩
  · exact ⟨rfl, rfl⟩

theorem endWhite_spaced (config : FormatConfig) (role : LineRole) (line : Text) :
    (spaced config role line).endWhite = line.endWhite := by
  unfold spaced
  split
  · exact endWhite_spaceAfterColon line
  · rfl

theorem formatProperty_writes (ht : style.tabStop < 2 ^ 50)
    (hexact : Indent.Exact style.tabStop (Indent.width style.tabStop line))
    (hvisible : Line.isBlankLine (spaced config role line) = false)
    (hcomment : Line.isComment line = false) (hp : st.propertyColumn < 2 ^ 63)
    (hplain : st.afterBraces = false)
    (hconverts : ∀ st : FormatState, st.afterBraces = false → converts config st line = false) :
    (formatProperty config style role st index line).state =
        (property config style role st line).1 ∧
      ∃ new, (formatProperty config style role st index line).edit? =
          replaceLine index line new ∧
        Writes line (property config style role st line).2 new := by
  have hwidth := (spaced_spec config style role line).1
  have hends := endWhite_spaced config role line
  have hcolumn : (propertyState style st line).propertyColumn < 2 ^ 63 := by
    unfold propertyState
    split
    · exact Nat.two_pow_pos 63
    · exact hp
  have hafter : (propertyState style st line).afterBraces = false := by
    unfold propertyState
    split <;> exact hplain
  have hoffset : Indent.moveOffset style.tabStop (propertyState style st line).propertyColumn line =
      ((propertyState style st line).propertyColumn : Int) - Indent.width style.tabStop line :=
    Indent.countDiff_eq hcolumn (Nat.lt_trans (hexact.lt ht) (by decide))
  have hspaced : (if (role.isDeclaration && !Line.hasSpaceAfterColon line && config.spaceAfterColon) =
      true then Line.spaceAfterColon line else line) = spaced config role line := by
    unfold spaced
    cases hspace : Line.hasSpaceAfterColon line with
    | false => simp
    | true => simp [Line.spaceAfterColon_of_hasSpace hspace]
  have hstate : (if (Line.isVariable line && Indent.width style.tabStop line == 0) = true then
      ({ st with propertyColumn := 0, headerLimit := 0 } : FormatState) else st) =
        propertyState style st line := rfl
  simp only [formatProperty, hstate, hspaced, hconverts _ hafter, hcomment, Bool.false_eq_true,
    if_false, hoffset]
  refine ⟨ofNewText?_eq.1.trans ?_, _, ofNewText?_eq.2, ?_⟩
  · simp only [property, hafter, nextProperty]
  have hsame : (role.isDeclaration && !Line.hasSpaceAfterColon line && config.spaceAfterColon) =
      false → spaced config role line = line := by
    intro h
    rw [← hspaced, if_neg (by rw [h]; exact Bool.false_ne_true)]
  obtain ⟨pre, hpre, -, hindent, -⟩ := withNormalIndent_spec config style (spaced config role line)
  by_cases hmove : Indent.width style.tabStop line = (propertyState style st line).propertyColumn
  · have hzero : ((propertyState style st line).propertyColumn : Int) -
        Indent.width style.tabStop line = 0 := by omega
    simp only [if_pos hzero]
    rw [property, placed_eq]
    refine writes_newText? _ ?_ ?_ ((endWhite_withNormalIndent hvisible).trans hends)
    · rw [hpre, hindent, hwidth]
    · intro hany
      simp only [LineChange.any, Bool.or_eq_false_iff] at hany
      refine Eq.trans ?_ (hsame hany.1.2)
      have hkept := hany.2
      unfold withNormalIndent at hkept ⊢
      split at hkept
      · cases hkept
      · rw [if_neg ‹_›]
  · have hnonzero : ¬((propertyState style st line).propertyColumn : Int) -
        Indent.width style.tabStop line = 0 := by omega
    simp only [if_neg hnonzero]
    have hmoves : Indent.width style.tabStop (spaced config role line) ≠
        (propertyState style st line).propertyColumn := by rwa [hwidth]
    have htarget : (property config style role st line).2 =
        if Indent.width style.tabStop (spaced config role line) =
            (propertyState style st line).propertyColumn then trimmed config (spaced config role line)
        else (Indent.ofColumn style (propertyState style st line).propertyColumn ++
          (spaced config role line).body).trimEnd := by
      rw [property, placed, if_neg hmoves, if_neg hmoves]
    rw [htarget]
    refine writes_newText? _ (by rw [hwidth]) ?_ hends
    intro hany
    simp only [LineChange.any, Bool.or_eq_false_iff] at hany
    exact hsame hany.1.2

/-! ## Roles -/

section Roles

variable {l o : Text}

/-- The role of a line is told by its traits and the reset mark. -/
theorem ofLine_congr (h : Line.traits l = Line.traits o)
    (hreset : Line.isResetMark l = Line.isResetMark o) (tab : Nat) (st : FormatState) :
    LineRole.ofLine tab st l = LineRole.ofLine tab st o := by
  simp only [Line.traits, Line.Traits.mk.injEq] at h
  simp only [LineRole.ofLine, h, hreset]

theorem isHeader_congr (h : Line.traits l = Line.traits o) (role : LineRole) :
    role.isHeader l = role.isHeader o := by
  simp only [Line.traits, Line.Traits.mk.injEq] at h
  simp only [LineRole.isHeader, h]

theorem isPropertyLike_congr (h : Line.traits l = Line.traits o) (role : LineRole) :
    role.isPropertyLike l = role.isPropertyLike o := by
  simp only [Line.traits, Line.Traits.mk.injEq] at h
  simp only [LineRole.isPropertyLike, h]

theorem isRedundantBefore_congr (h : Line.traits l = Line.traits o) (st : FormatState) :
    isRedundantBefore config st l = isRedundantBefore config st o := by
  simp only [Line.traits, Line.Traits.mk.injEq] at h
  simp only [isRedundantBefore, h]

end Roles

theorem ofLine_of_isInert (h : Line.IsInert line) (tab : Nat) (st : FormatState) :
    LineRole.ofLine tab st line = (⟨false, false, false, false, Line.isResetMark line, false⟩, st) := by
  have hpoint : Line.isKeyframePoint line = false := congrArg Line.Traits.isKeyframePoint h
  have hif : Line.isIfOrElse line = false := congrArg Line.Traits.isIfOrElse h
  have helse : Line.isElse line = false := congrArg Line.Traits.isElse h
  have hkeyframes : Line.isKeyframes line = false := congrArg Line.Traits.isKeyframes h
  have hproperty : Line.isProperty line = false := congrArg Line.Traits.isProperty h
  have hvariable : Line.isVariable line = false := congrArg Line.Traits.isVariable h
  simp [LineRole.ofLine, hpoint, hif, helse, hkeyframes, hproperty, hvariable]

theorem isHeader_of_isInert (h : Line.IsInert line) (isReset : Bool) :
    (⟨false, false, false, false, isReset, false⟩ : LineRole).isHeader line = isReset := by
  simp only [Line.IsInert, Line.traits, Line.Traits.mk.injEq] at h
  rw [LineRole.isHeader]
  simp only [h]
  cases isReset <;> rfl

theorem isPropertyLike_of_isInert (h : Line.IsInert line) (isReset : Bool) :
    (⟨false, false, false, false, isReset, false⟩ : LineRole).isPropertyLike line = false := by
  simp only [Line.IsInert, Line.traits, Line.Traits.mk.injEq] at h
  rw [LineRole.isPropertyLike]
  simp only [h]
  rfl

/-- A blank line is no mark. -/
theorem isMark_of_isBlankLine (h : Line.isBlankLine line = true) (mark : Char) :
    Line.isMark mark line = false := by
  refine Bool.eq_false_iff.2 fun hmark => ?_
  have hcomment := Line.isLineComment_of_isMark hmark
  rw [show Line.isLineComment line = _ from
    congrArg Line.Traits.isLineComment (Line.traits_of_isBlankLine h)] at hcomment
  cases hcomment

/-! ## Formatting a line -/

/-- What holds of the states on the way through a text. -/
structure Settled (tab : Nat) (st : FormatState) : Prop where
  /-- No brace syntax was converted. -/
  plain : st.afterBraces = false
  selector : st.lastSelector = []
  /-- The columns are tab stops, at most a few of them further right than the lines. -/
  limit_dvd : tab ∣ st.headerLimit
  property_dvd : tab ∣ st.propertyColumn
  keyframe_dvd : tab ∣ st.keyframeColumn
  limit_le : st.headerLimit ≤ 2 ^ 50 + 2 * tab
  property_le : st.propertyColumn ≤ 2 ^ 50 + 4 * tab
  keyframe_le : st.keyframeColumn ≤ 2 ^ 50 + 2 * tab
  /-- Where properties are at column zero, headers are. -/
  base : st.propertyColumn = 0 → st.headerLimit = 0
  /-- Keyframe points are nested. -/
  keyframes : st.inKeyframes = true → 0 < st.keyframeColumn

theorem converts_eq_false
    (hbraces : config.convertBraces = true → Line.isBraceSyntax line false = false)
    (h : st.afterBraces = false) : converts config st line = false := by
  rw [converts, h]
  cases hconfig : config.convertBraces with
  | false => rfl
  | true => rw [hbraces hconfig]; rfl

theorem codeState_frame (style : IndentStyle) (st : FormatState) (line : Text) :
    (codeState style st line).headerLimit = st.headerLimit ∧
      (codeState style st line).afterBraces = st.afterBraces ∧
      (codeState style st line).lastSelector = st.lastSelector ∧
      (codeState style st line).inKeyframes = st.inKeyframes ∧
      (codeState style st line).keyframeColumn = st.keyframeColumn := by
  unfold codeState
  dsimp only
  split <;> exact ⟨rfl, rfl, rfl, rfl, rfl⟩

theorem codeState_flags (style : IndentStyle) (st : FormatState) (line : Text) :
    (codeState style st line).inBlockComment = st.inBlockComment ∧
      (codeState style st line).ignoreNext = st.ignoreNext := by
  unfold codeState
  dsimp only
  split <;> exact ⟨rfl, rfl⟩

/-- The column that a property-like line goes to. -/
theorem codeState_propertyColumn (style : IndentStyle) (st : FormatState) (line : Text) :
    (codeState style st line).propertyColumn =
      if st.inKeyframes && Line.isIfOrElse line then st.keyframeColumn + style.tabStop
      else if !st.inKeyframes && Line.isElse line then st.headerLimit - style.tabStop
      else if st.inKeyframes && Line.isKeyframePoint line then st.keyframeColumn
      else st.propertyColumn := by
  unfold codeState
  dsimp only
  split <;> rfl

/-- A property-like line goes to a tab stop. -/
theorem Settled.codeState_stop (hst : Settled style.tabStop st) (line : Text) :
    style.tabStop ∣ (codeState style st line).propertyColumn ∧
      (codeState style st line).propertyColumn ≤ 2 ^ 50 + 4 * style.tabStop := by
  have hlimit := hst.limit_le
  have hproperty := hst.property_le
  have hkeyframe := hst.keyframe_le
  rw [codeState_propertyColumn]
  split_ifs
  · exact ⟨Nat.dvd_add hst.keyframe_dvd (Nat.dvd_refl _), by omega⟩
  · exact ⟨Nat.dvd_sub hst.limit_dvd (Nat.dvd_refl _), by omega⟩
  · exact ⟨hst.keyframe_dvd, by omega⟩
  · exact ⟨hst.property_dvd, hproperty⟩

/-- A property-like line is no comment, and not blank. -/
theorem not_isInert {tab : Nat} (h : (LineRole.ofLine tab st line).1.isPropertyLike line = true) :
    ¬Line.IsInert line := by
  intro hinert
  rw [ofLine_of_isInert hinert, isPropertyLike_of_isInert hinert] at h
  cases h

/-- A header is not blank. -/
theorem visible_of_isHeader {tab : Nat} (h : (LineRole.ofLine tab st line).1.isHeader line = true) :
    Line.isBlankLine line = false := by
  refine Bool.eq_false_iff.2 fun hblank => ?_
  have hinert := Line.isInert_of_isBlankLine hblank
  rw [ofLine_of_isInert hinert, isHeader_of_isInert hinert, Line.isResetMark,
    isMark_of_isBlankLine hblank] at h
  cases h

theorem visible_of_isPropertyLike {tab : Nat}
    (h : (LineRole.ofLine tab st line).1.isPropertyLike line = true) :
    Line.isBlankLine line = false :=
  Bool.eq_false_iff.2 fun hblank => not_isInert h (Line.isInert_of_isBlankLine hblank)

theorem notComment_of_isPropertyLike {tab : Nat}
    (h : (LineRole.ofLine tab st line).1.isPropertyLike line = true) :
    Line.isComment line = false :=
  Bool.eq_false_iff.2 fun hcomment => not_isInert h (Line.isInert_of_isComment hcomment)

variable (config) in
/-- The space after the colon changes no trait of a line. -/
theorem traits_spaced (tab : Nat) (st : FormatState) (line : Text) :
    Line.traits (spaced config (LineRole.ofLine tab st line).1 line) = Line.traits line := by
  unfold spaced
  split
  · rename_i h
    exact Line.traits_spaceAfterColon (Bool.and_eq_true_iff.1 h).1
  · rfl

/-- A blank line is formatted in the state that it finds. -/
theorem codeState_of_isBlankLine (h : Line.isBlankLine line = true) :
    codeState style st line = st := by
  rw [codeState, ofLine_of_isInert (Line.isInert_of_isBlankLine h), Line.isSpaceMark,
    isMark_of_isBlankLine h]
  rfl

theorem formatCode_writes (ht : style.tabStop < 2 ^ 50) (hst : Settled style.tabStop st)
    (hexact : Line.isBlankLine line = false →
      Indent.Exact style.tabStop (Indent.width style.tabStop line))
    (hbraces : config.convertBraces = true → Line.isBraceSyntax line false = false)
    (hignore : st.ignoreNext = false) (hcomment : st.inBlockComment = false) :
    (formatCode config style st index line next?).state = (advanceCode config style st line).1 ∧
      ∃ new, Writes line (advanceCode config style st line).2 new ∧
        (formatCode config style st index line next?).edit? =
          if drops config st line next? then some (removeLine index)
          else replaceLine index line new := by
  obtain ⟨hlimit, hplain, hselector, -, -⟩ := codeState_frame style st line
  have hvisible : Line.isBlankLine line = false → drops config st line next? = false := by
    intro h
    rw [drops, h, Bool.and_false, Bool.false_and]
  rw [show formatCode config style st index line next? =
    let role := (LineRole.ofLine style.tabStop st line).1
    let st := codeState style st line
    if role.isHeader line then formatHeader config style role st index line
    else if role.isPropertyLike line then formatProperty config style role st index line
    else if Line.isBlankLine line then formatBlank config st index line next?
    else if converts config st line then formatBraces config st index line next?
    else trimLine config st index line from rfl, advanceCode]
  dsimp only
  by_cases hheader : (LineRole.ofLine style.tabStop st line).1.isHeader line = true
  · rw [if_pos hheader, if_pos hheader, hvisible (visible_of_isHeader hheader)]
    have hle := hst.limit_le
    have hshown := visible_of_isHeader hheader
    obtain ⟨hstate, new, hedit, hwrites⟩ := formatHeader_writes ht (hexact hshown) hshown (by omega)
      (hplain.trans hst.plain) (hselector.trans hst.selector)
      (converts_eq_false hbraces (hplain.trans hst.plain))
    exact ⟨hstate, new, hwrites, hedit⟩
  rw [if_neg hheader, if_neg hheader]
  by_cases hproperty : (LineRole.ofLine style.tabStop st line).1.isPropertyLike line = true
  · rw [if_pos hproperty, if_pos hproperty, hvisible (visible_of_isPropertyLike hproperty)]
    have hle := (hst.codeState_stop line).2
    have hshown := visible_of_isPropertyLike hproperty
    have hspaced : Line.isBlankLine
        (spaced config (LineRole.ofLine style.tabStop st line).1 line) = false := by
      rw [show Line.isBlankLine _ = _ from congrArg Line.Traits.isBlankLine (traits_spaced ..)]
      exact hshown
    obtain ⟨hstate, new, hedit, hwrites⟩ := formatProperty_writes ht (hexact hshown) hspaced
      (notComment_of_isPropertyLike hproperty) (by omega) (hplain.trans hst.plain)
      fun st h => converts_eq_false hbraces h
    exact ⟨hstate, new, hwrites, hedit⟩
  rw [if_neg hproperty, if_neg hproperty]
  by_cases hblank : Line.isBlankLine line = true
  · rw [if_pos hblank, codeState_of_isBlankLine hblank, formatBlank, drops, hignore, hcomment, hblank,
      Bool.not_false, Bool.true_and, Bool.true_and, Bool.true_and]
    by_cases hnext : next?.any (isRedundantBefore config st) = true
    · rw [if_pos hnext]
      exact ⟨rfl, _, writes_trimmed config line, (if_pos hnext).symm⟩
    rw [if_neg hnext]
    have hnil : line.trimEnd = [] := Text.trimEnd_white (Line.white_of_isBlankLine hblank) []
    refine ⟨?_, _, writes_trimmed config line, (Eq.trans ?_ (if_neg hnext).symm)⟩
    all_goals
      by_cases htrim : config.trimTrailing = true
      · cases line with
        | nil => simp [trimmed, htrim, replaceLine_self, hnil]
        | cons c rest => simp [trimmed, htrim, hnil]
      · simp [trimmed, htrim, replaceLine_self]
  · rw [if_neg hblank, if_neg, hvisible (by simpa using hblank)]
    · obtain ⟨hstate, hedit⟩ := trimLine_eq config (codeState style st line) index line
      exact ⟨hstate, _, writes_trimmed config line, hedit⟩
    · rw [converts_eq_false hbraces (hplain.trans hst.plain)]
      exact Bool.false_ne_true

variable (index next?) in
/-- Formatting a line is a step, but white space may stay at its end. -/
theorem formatLine_writes (ht : style.tabStop < 2 ^ 50) (hst : Settled style.tabStop st)
    (hexact : Line.isBlankLine line = false →
      Indent.Exact style.tabStop (Indent.width style.tabStop line))
    (hbraces : config.convertBraces = true → Line.isBraceSyntax line false = false) :
    (formatLine config style st index line next?).state = (advance config style st line).1 ∧
      ∃ new, Writes line (advance config style st line).2 new ∧
        (formatLine config style st index line next?).edit? =
          if drops config st line next? then some (removeLine index)
          else replaceLine index line new := by
  have htrims : drops config st line next? = false → ∀ st' : FormatState,
      (trimLine config st' index line).state = st' ∧
        ∃ new, Writes line (trimmed config line) new ∧ (trimLine config st' index line).edit? =
          if drops config st line next? then some (removeLine index)
          else replaceLine index line new := by
    intro hkept st'
    obtain ⟨hstate, hedit⟩ := trimLine_eq config st' index line
    rw [hkept]
    exact ⟨hstate, _, writes_trimmed config line, hedit⟩
  unfold formatLine advance
  by_cases hignore : st.ignoreNext = true
  · have hkept : drops config st line next? = false := by simp [drops, hignore]
    rw [if_pos hignore, if_pos hignore, hkept]
    exact ⟨rfl, line, .refl line, (replaceLine_self index line).symm⟩
  rw [if_neg hignore, if_neg hignore]
  by_cases hcomment : st.inBlockComment = true
  · rw [if_pos hcomment, if_pos hcomment]
    exact htrims (by simp [drops, hcomment]) _
  rw [if_neg hcomment, if_neg hcomment]
  by_cases hopens : Line.opensBlockComment line = true
  · have hvisible : Line.isBlankLine line = false := by
      refine Bool.eq_false_iff.2 fun hblank => ?_
      rw [show Line.opensBlockComment line = _ from
        congrArg Line.Traits.opensBlockComment (Line.traits_of_isBlankLine hblank)] at hopens
      cases hopens
    rw [if_pos hopens, if_pos hopens]
    exact htrims (by simp [drops, hvisible]) _
  rw [if_neg hopens, if_neg hopens]
  by_cases hmark : Line.isIgnoreMark line = true
  · have hvisible : Line.isBlankLine line = false := by
      refine Bool.eq_false_iff.2 fun hblank => ?_
      rw [Line.isIgnoreMark, isMark_of_isBlankLine hblank] at hmark
      cases hmark
    rw [if_pos hmark, if_pos hmark]
    exact htrims (by simp [drops, hvisible]) _
  rw [if_neg hmark, if_neg hmark]
  exact formatCode_writes ht hst hexact hbraces (by simpa using hignore) (by simpa using hcomment)

variable (index next?) in
/-- Formatting a line that ends in blanks only is a step. -/
theorem formatLine_eq (ht : style.tabStop < 2 ^ 50) (hst : Settled style.tabStop st)
    (hline : Regular config style line) :
    (formatLine config style st index line next?).state = (advance config style st line).1 ∧
      (formatLine config style st index line next?).edit? =
        if drops config st line next? then some (removeLine index)
        else replaceLine index line (advance config style st line).2 := by
  obtain ⟨hstate, new, hwrites, hedit⟩ :=
    formatLine_writes index next? ht hst (fun _ => hline.column) hline.braces
  exact ⟨hstate, hwrites.plain hline.ends ▸ hedit⟩

/-! ## What a step keeps -/

theorem settled_start (tab : Nat) : Settled tab {} where
  plain := rfl
  selector := rfl
  limit_dvd := Nat.dvd_zero tab
  property_dvd := Nat.dvd_zero tab
  keyframe_dvd := Nat.dvd_zero tab
  limit_le := Nat.zero_le _
  property_le := Nat.zero_le _
  keyframe_le := Nat.zero_le _
  base := fun _ => rfl
  keyframes := by simp

/-- Marks and comments leave a state settled. -/
theorem Settled.withFlags {tab : Nat} (hst : Settled tab st) (a b c : Bool) :
    Settled tab { st with inBlockComment := a, ignoreNext := b, keepBlanks := c } where
  plain := hst.plain
  selector := hst.selector
  limit_dvd := hst.limit_dvd
  property_dvd := hst.property_dvd
  keyframe_dvd := hst.keyframe_dvd
  limit_le := hst.limit_le
  property_le := hst.property_le
  keyframe_le := hst.keyframe_le
  base := hst.base
  keyframes := hst.keyframes

theorem Settled.header (ht : style.tabStop < 2 ^ 50) (hst : Settled style.tabStop st)
    (hc : Indent.width style.tabStop line < 2 ^ 50) (role : LineRole) :
    Settled style.tabStop (Format.header config style role (codeState style st line) line).1 := by
  obtain ⟨hlimit, hbraces, hselector, -, hcolumn⟩ := codeState_frame style st line
  have htab := style.tabStop_pos
  have hle := Indent.snapColumn_le st.headerLimit role.isReset htab ht (.inl hc)
  have hdvd := Indent.dvd_snapColumn (Indent.width style.tabStop line) role.isReset hst.limit_dvd
  simp only [Format.header, hlimit]
  generalize Indent.snapColumn style.tabStop (Indent.width style.tabStop line) st.headerLimit
    role.isReset = n at *
  have hdeeper : style.tabStop ∣ n + style.tabStop := Nat.dvd_add hdvd (Nat.dvd_refl _)
  have hnext : style.tabStop ∣ (if role.isReset = true then n else n + style.tabStop) := by
    split
    · exact hdvd
    · exact hdeeper
  have hnext_le : (if role.isReset = true then n else n + style.tabStop) ≤
      2 ^ 50 + 2 * style.tabStop := by
    split <;> omega
  refine ⟨hbraces.trans hst.plain, hselector.trans hst.selector, hnext, hnext, ?_, hnext_le,
    Nat.le_trans hnext_le (by omega), ?_, id, fun h => ?_⟩
  · dsimp only
    split
    · exact hdeeper
    · exact hcolumn ▸ hst.keyframe_dvd
  · dsimp only
    split
    · omega
    · exact hcolumn ▸ hst.keyframe_le
  · dsimp only at h ⊢
    rw [if_pos h]
    omega

/-- A line that is neither a branch nor a keyframe point goes to the column of the
    properties. -/
theorem codeState_of_isPlain (hbranch : (LineRole.ofLine style.tabStop st line).1.isBranch = false)
    (hpoint : (LineRole.ofLine style.tabStop st line).1.isKeyframePoint = false) :
    (codeState style st line).propertyColumn = st.propertyColumn := by
  simp only [LineRole.ofLine, Bool.or_eq_false_iff] at hbranch hpoint
  rw [codeState_propertyColumn, hbranch.1, hbranch.2, hpoint]
  rfl

/-- What is settled stays so when the properties go to another tab stop. -/
theorem Settled.withProperty {n : Nat} (hst : Settled style.tabStop st) (line : Text)
    (hdvd : style.tabStop ∣ n) (hle : n ≤ 2 ^ 50 + 4 * style.tabStop)
    (hbase : n = 0 → st.headerLimit = 0) :
    Settled style.tabStop { codeState style st line with propertyColumn := n } := by
  obtain ⟨hlimit, hbraces, hselector, hkeyframes, hcolumn⟩ := codeState_frame style st line
  refine ⟨hbraces.trans hst.plain, hselector.trans hst.selector, hlimit ▸ hst.limit_dvd, hdvd,
    hcolumn ▸ hst.keyframe_dvd, hlimit ▸ hst.limit_le, hle, hcolumn ▸ hst.keyframe_le,
    fun h => hlimit.trans (hbase h), fun h => ?_⟩
  exact hcolumn ▸ hst.keyframes (hkeyframes ▸ h)

theorem Settled.property (hst : Settled style.tabStop st) (line : Text) :
    Settled style.tabStop (Format.property config style (LineRole.ofLine style.tabStop st line).1
      (codeState style st line) line).1 := by
  obtain ⟨hlimit, -, -, hkeyframes, hcolumn⟩ := codeState_frame style st line
  have htab := style.tabStop_pos
  have hlimit_le := hst.limit_le
  have hkeyframe_le := hst.keyframe_le
  have hdouble : style.tabStop ∣ style.tabStop * 2 := Nat.dvd_mul_right ..
  -- the column of the properties afterwards, from the state before the line
  have hnext : ∀ st' : FormatState, st'.keyframeColumn = st.keyframeColumn →
      style.tabStop ∣ st'.headerLimit → st'.headerLimit ≤ 2 ^ 50 + 2 * style.tabStop →
      style.tabStop ∣ st'.propertyColumn → st'.propertyColumn ≤ 2 ^ 50 + 4 * style.tabStop →
      style.tabStop ∣ nextProperty style (LineRole.ofLine style.tabStop st line).1 st' ∧
        nextProperty style (LineRole.ofLine style.tabStop st line).1 st' ≤
          2 ^ 50 + 4 * style.tabStop := by
    intro st' hkeyframe hdvd hle hdvd' hle'
    rw [nextProperty, hkeyframe]
    split_ifs
    · exact ⟨Nat.dvd_add hst.keyframe_dvd hdouble, by omega⟩
    · exact ⟨hdvd, by omega⟩
    · exact ⟨Nat.dvd_add hst.keyframe_dvd (Nat.dvd_refl _), by omega⟩
    · exact ⟨hdvd', hle'⟩
  unfold Format.property propertyState
  split
  · -- nothing is nested below a global variable
    obtain ⟨hdvd, hle⟩ := hnext { codeState style st line with propertyColumn := 0, headerLimit := 0 }
      hcolumn (Nat.dvd_zero _) (Nat.zero_le _) (Nat.dvd_zero _) (Nat.zero_le _)
    have hsettled := hst.withProperty (n := style.tabStop) line (Nat.dvd_refl _) (by omega)
      (by omega)
    exact { hsettled with
      limit_dvd := Nat.dvd_zero _
      limit_le := Nat.zero_le _
      property_dvd := hdvd
      property_le := hle
      base := fun _ => rfl }
  · obtain ⟨hstop, hstop_le⟩ := hst.codeState_stop line
    obtain ⟨hdvd, hle⟩ := hnext (codeState style st line) hcolumn (hlimit ▸ hst.limit_dvd)
      (hlimit ▸ hst.limit_le) hstop hstop_le
    refine hst.withProperty line hdvd hle ?_
    rw [nextProperty, hcolumn, hlimit]
    split_ifs with hbranch _ hpoint
    · omega
    · exact id
    · omega
    · rw [codeState_of_isPlain (by simpa using hbranch) ?_]
      · exact hst.base
      · simp only [hkeyframes, Bool.and_eq_true, not_and, Bool.not_eq_true] at hpoint
        cases hin : st.inKeyframes with
        | false => simp [LineRole.ofLine, hin]
        | true => exact hpoint hin

variable (config) in
/-- Every step leads to a settled state; the column of a blank line does not matter. -/
theorem Settled.advance_of_visible (ht : style.tabStop < 2 ^ 50) (hst : Settled style.tabStop st)
    (hc : Line.isBlankLine line = false → Indent.width style.tabStop line < 2 ^ 50) :
    Settled style.tabStop (Format.advance config style st line).1 := by
  unfold Format.advance
  split
  · exact hst.withFlags _ false _
  split
  · exact hst.withFlags _ _ _
  split
  · exact hst.withFlags _ _ _
  split
  · exact hst.withFlags _ true _
  unfold advanceCode
  dsimp only
  split_ifs with hheader hproperty
  · exact hst.header ht (hc (visible_of_isHeader hheader)) _
  · exact hst.property line
  · simp only [LineRole.isPropertyLike, Bool.or_eq_true, not_or, Bool.not_eq_true] at hproperty
    have hplain := codeState_of_isPlain hproperty.2 hproperty.1.2
    obtain ⟨hdvd, hle⟩ := hst.codeState_stop line
    exact hst.withProperty line hdvd hle fun h => hst.base (hplain.symm.trans h)

variable (config) in
theorem Settled.advance (ht : style.tabStop < 2 ^ 50) (hst : Settled style.tabStop st)
    (hc : Indent.width style.tabStop line < 2 ^ 50) :
    Settled style.tabStop (Format.advance config style st line).1 :=
  hst.advance_of_visible config ht fun _ => hc

end IndentedSass.Format
