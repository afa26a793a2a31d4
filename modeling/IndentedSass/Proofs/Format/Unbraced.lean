/-
  Formatting brace syntax is formatting what it is converted to.

  A line of brace syntax is converted and put into its place in one step.  The step writes
  what formatting the converted line would write if nothing was converted, and below it the
  lines of its rule (`formatLine_unbraced`).  It does so as long as conversion does not change
  what the formatter takes the line for (`Tidy`).

  * `unbraced` lists the lines that a line is converted to;
  * `InPlace`: formatting these lines once more, in another state, writes the same
    (`InPlace.advanceAll`); `allStand_of_declares`: declarations of a rule stay in it;
  * `bare` is a state without what conversion carries along, `unconverted` are settings
    without conversion: a line that is not converted does not depend on either
    (`formatLine_unconverted`, `formatLine_bare`).
-/
import Mathlib
import IndentedSass.Proofs.Format.Braces
import IndentedSass.Proofs.Format.Idempotence
import IndentedSass.Proofs.Format.Standing

namespace IndentedSass.Format

variable {config : FormatConfig} {style : IndentStyle} {st s : FormatState} {role : LineRole}
  {line text : Text} {index column : Nat} {next? after? : Option Text}

/-! ## Formatting without conversion -/

/-- The settings with which brace syntax is left as it is. -/
def unconverted (config : FormatConfig) : FormatConfig := { config with convertBraces := false }

theorem advance_unconverted (config : FormatConfig) :
    advance (unconverted config) = advance config := rfl

/-- A state without the memory of brace syntax. -/
def bare (st : FormatState) : FormatState := { st with afterBraces := false, lastSelector := [] }

/-- A line is code: it is outside of block comments, opens none, and is neither an ignore
    mark nor left alone because of one. -/
def isCode (st : FormatState) (line : Text) : Bool :=
  !st.ignoreNext && !st.inBlockComment && !Line.opensBlockComment line && !Line.isIgnoreMark line

theorem formatHeader_unconverted (h : converts config st line = false) :
    formatHeader config style role st index line =
      formatHeader (unconverted config) style role st index line := by
  unfold formatHeader
  rw [h, show converts (unconverted config) st line = false from rfl]
  rfl

theorem formatProperty_unconverted
    (h : ∀ st' : FormatState, st'.afterBraces = st.afterBraces → converts config st' line = false) :
    formatProperty config style role st index line =
      formatProperty (unconverted config) style role st index line := by
  unfold formatProperty
  have hstate : converts config (if (Line.isVariable line && Indent.width style.tabStop line == 0) =
      true then { st with propertyColumn := 0, headerLimit := 0 } else st) line = false := by
    split
    · exact h _ rfl
    · exact h _ rfl
  simp only [hstate]
  rfl

/-- A line of code is formatted in the state that its role asks for. -/
theorem formatCode_codeState (config : FormatConfig) (style : IndentStyle) (st : FormatState)
    (index : Nat) (line : Text) (next? : Option Text) :
    formatCode config style st index line next? =
      if (LineRole.ofLine style.tabStop st line).1.isHeader line then
        formatHeader config style (LineRole.ofLine style.tabStop st line).1 (codeState style st line)
          index line
      else if (LineRole.ofLine style.tabStop st line).1.isPropertyLike line then
        formatProperty config style (LineRole.ofLine style.tabStop st line).1
          (codeState style st line) index line
      else if Line.isBlankLine line then formatBlank config (codeState style st line) index line next?
      else if converts config (codeState style st line) line then
        formatBraces config (codeState style st line) index line next?
      else trimLine config (codeState style st line) index line := rfl

theorem formatLine_of_isCode (h : isCode st line = true) :
    formatLine config style st index line next? = formatCode config style st index line next? := by
  simp only [isCode, Bool.and_eq_true, Bool.not_eq_true'] at h
  obtain ⟨⟨⟨hignore, hcomment⟩, hopens⟩, hmark⟩ := h
  simp [formatLine, hignore, hcomment, hopens, hmark]

theorem advance_of_isCode (h : isCode st line = true) :
    advance config style st line = advanceCode config style st line := by
  simp only [isCode, Bool.and_eq_true, Bool.not_eq_true'] at h
  obtain ⟨⟨⟨hignore, hcomment⟩, hopens⟩, hmark⟩ := h
  simp [advance, hignore, hcomment, hopens, hmark]

theorem converts_congr {st' : FormatState} (h : st'.afterBraces = st.afterBraces) :
    converts config st' line = converts config st line := by
  rw [converts, h]
  rfl

variable (style index next?) in
/-- A line that is not converted is formatted as if there was no conversion. -/
theorem formatLine_unconverted (h : isCode st line = true → converts config st line = false) :
    formatLine config style st index line next? =
      formatLine (unconverted config) style st index line next? := by
  by_cases hcode : isCode st line = true
  · have hconverts : ∀ st' : FormatState, st'.afterBraces = st.afterBraces →
        converts config st' line = false :=
      fun st' hst' => (converts_congr hst').trans (h hcode)
    obtain ⟨-, hbraces, -⟩ := codeState_frame style st line
    rw [formatLine_of_isCode hcode, formatLine_of_isCode hcode, formatCode_codeState,
      formatCode_codeState, formatHeader_unconverted (hconverts _ hbraces),
      formatProperty_unconverted fun st' hst' => hconverts st' (hst'.trans hbraces),
      hconverts _ hbraces]
    rfl
  · unfold formatLine
    split_ifs with hignore hcomment hopens hmark
    · rfl
    · rfl
    · rfl
    · rfl
    · simp [isCode, hignore, hcomment, hopens, hmark] at hcode

/-- The result `r'` is `r`, but for the memory of brace syntax. -/
def Forgets (r r' : LineResult) : Prop := r'.state = bare r.state ∧ r'.edit? = r.edit?

theorem formatHeader_bare (config : FormatConfig) (style : IndentStyle) (role : LineRole)
    (st : FormatState) (index : Nat) (line : Text) :
    Forgets (formatHeader (unconverted config) style role st index line)
      (formatHeader (unconverted config) style role (bare st) index line) := by
  have hconverts : ∀ st, converts (unconverted config) st line = false := fun _ => rfl
  simp only [Forgets, formatHeader, hconverts, Bool.false_eq_true, if_false]
  rw [show (bare st).headerLimit = st.headerLimit from rfl]
  split
  · exact ⟨by simp [bare], rfl⟩
  · exact ⟨by simp [bare], rfl⟩

theorem formatProperty_bare (config : FormatConfig) (style : IndentStyle) (role : LineRole)
    (st : FormatState) (index : Nat) (line : Text) :
    Forgets (formatProperty (unconverted config) style role st index line)
      (formatProperty (unconverted config) style role (bare st) index line) := by
  have hconverts : ∀ st, converts (unconverted config) st line = false := fun _ => rfl
  have hstate : (if (Line.isVariable line && Indent.width style.tabStop line == 0) = true then
      { bare st with propertyColumn := 0, headerLimit := 0 } else bare st) =
        bare (if (Line.isVariable line && Indent.width style.tabStop line == 0) = true then
          { st with propertyColumn := 0, headerLimit := 0 } else st) := by
    split <;> rfl
  simp only [Forgets, formatProperty, hconverts, Bool.false_eq_true, if_false, hstate]
  generalize (if (Line.isVariable line && Indent.width style.tabStop line == 0) = true then
    { st with propertyColumn := 0, headerLimit := 0 } else st) = st'
  rw [show (bare st').propertyColumn = st'.propertyColumn from rfl]
  split
  · exact ⟨rfl, rfl⟩
  · exact ⟨rfl, rfl⟩

theorem trimLine_bare (config : FormatConfig) (st : FormatState) (index : Nat) (line : Text) :
    Forgets (trimLine config st index line) (trimLine config (bare st) index line) := by
  unfold trimLine
  split <;> exact ⟨rfl, rfl⟩

theorem formatBlank_bare (config : FormatConfig) (st : FormatState) (index : Nat) (line : Text)
    (next? : Option Text) :
    Forgets (formatBlank config st index line next?)
      (formatBlank config (bare st) index line next?) := by
  unfold formatBlank
  rw [show isRedundantBefore config (bare st) = isRedundantBefore config st from rfl]
  split_ifs <;> exact ⟨rfl, rfl⟩

theorem codeState_bare (style : IndentStyle) (st : FormatState) (line : Text) :
    codeState style (bare st) line = bare (codeState style st line) := by
  unfold codeState
  dsimp only
  split <;> rfl

/-- The memory of brace syntax does not matter for a line that is not converted. -/
theorem formatLine_bare (config : FormatConfig) (style : IndentStyle) (st : FormatState)
    (index : Nat) (line : Text) (next? : Option Text) :
    Forgets (formatLine (unconverted config) style st index line next?)
      (formatLine (unconverted config) style (bare st) index line next?) := by
  unfold formatLine
  rw [show (bare st).ignoreNext = st.ignoreNext from rfl,
    show (bare st).inBlockComment = st.inBlockComment from rfl]
  split_ifs
  · exact ⟨rfl, rfl⟩
  · exact trimLine_bare ..
  · exact trimLine_bare ..
  · exact trimLine_bare ..
  rw [formatCode_codeState, formatCode_codeState, codeState_bare,
    show (LineRole.ofLine style.tabStop (bare st) line).1 =
      (LineRole.ofLine style.tabStop st line).1 from rfl]
  have hconverts : ∀ st, converts (unconverted config) st line = false := fun _ => rfl
  simp only [hconverts, Bool.false_eq_true, if_false]
  split_ifs
  · exact formatHeader_bare ..
  · exact formatProperty_bare ..
  · exact formatBlank_bare ..
  · exact trimLine_bare ..

variable (index next?) in
/-- Formatting a line that is not converted is a step. -/
theorem formatLine_eq_advance (ht : style.tabStop < 2 ^ 50) (hst : Settled style.tabStop (bare st))
    (hline : Plain (unconverted config) style line)
    (h : isCode st line = true → converts config st line = false) :
    bare (formatLine config style st index line next?).state =
        (advance config style (bare st) line).1 ∧
      (formatLine config style st index line next?).edit? =
        if drops config (bare st) line next? then some (removeLine index)
        else replaceLine index line (advance config style (bare st) line).2 := by
  obtain ⟨hstate, hedit⟩ := formatLine_bare config style st index line next?
  obtain ⟨hstate', hedit'⟩ := formatLine_eq index next? ht hst hline.regular
  rw [formatLine_unconverted style index next? h, ← hstate, ← hedit]
  exact ⟨hstate', hedit'⟩

/-! ## What a line is converted to -/

/-- A line opens a block as far as blank lines before it are concerned. -/
def opensBlock (line : Text) : Bool :=
  Line.isClassOrId line || Line.isAtRule line || Line.isParentRef line ||
    Line.isElement line.trim || Line.isStar line || Line.isPseudo line

theorem isRedundantBefore_eq (config : FormatConfig) (st : FormatState) (line : Text) :
    isRedundantBefore config st line =
      (config.dropBlankLines && (config.compact || !Line.isProperty line) && !st.keepBlanks &&
        !opensBlock line) := by
  simp only [isRedundantBefore, opensBlock, Bool.not_or, Bool.and_assoc]

variable (config style st line) in
/-- The conversion of a line of brace syntax, with the space after its colon. -/
def converted : Converted :=
  convertBraces (spaced config (LineRole.ofLine style.tabStop st line).1 line) st.lastSelector

/-- Only declarations get a space after their colon before they are converted. -/
theorem converted_eq (h : (LineRole.ofLine style.tabStop st line).1.isDeclaration = false) :
    converted config style st line = convertBraces line st.lastSelector := by
  rw [converted, spaced, h]
  rfl

variable (style st line) in
/-- The column that a header of brace syntax goes to. -/
def convertedColumn (nested : Bool) : Nat :=
  Indent.snapColumn style.tabStop (Indent.width style.tabStop line) st.headerLimit false +
    if nested then style.tabStop else 0

variable (config style st line) in
/-- The lines that a line becomes before they are formatted. -/
def unbraced : List Text :=
  if isCode st line && converts config st line then
    let new := converted config style st line
    if (LineRole.ofLine style.tabStop st line).1.isHeader line then
      let column := convertedColumn style st line new.nested
      placed config style column new.text :: new.lines.map fun l =>
        Indent.ofColumn style (column + style.tabStop * l.depth) ++ l.text
    else [new.text]
  else [line]

/-- The line `new` is taken for what `line` is: it has its place in the same block, and
    it is no brace syntax. -/
@[mk_iff] structure Keeps (style : IndentStyle) (st : FormatState) (line new : Text) : Prop where
  role : LineRole.ofLine style.tabStop st new = LineRole.ofLine style.tabStop st line
  header : (LineRole.ofLine style.tabStop st line).1.isHeader new =
    (LineRole.ofLine style.tabStop st line).1.isHeader line
  property : (LineRole.ofLine style.tabStop st line).1.isPropertyLike new =
    (LineRole.ofLine style.tabStop st line).1.isPropertyLike line
  block : opensBlock new = opensBlock line
  isProperty : Line.isProperty new = Line.isProperty line
  isVariable : Line.isVariable new = Line.isVariable line
  column : Line.isBlankLine new = false →
    Indent.width style.tabStop new = Indent.width style.tabStop line
  code : Line.isComment new = false
  braces : Line.isBraceSyntax new false = false

instance (style : IndentStyle) (st : FormatState) (line new : Text) :
    Decidable (Keeps style st line new) := decidable_of_iff' _ (keeps_iff ..)

theorem Keeps.visible_of_header {new : Text} (h : Keeps style st line new)
    (hheader : (LineRole.ofLine style.tabStop st line).1.isHeader line = true) :
    Line.isBlankLine new = false := by
  refine @visible_of_isHeader st _ style.tabStop ?_
  rw [h.role, h.header, hheader]

theorem Keeps.visible_of_property {new : Text} (h : Keeps style st line new)
    (hproperty : (LineRole.ofLine style.tabStop st line).1.isPropertyLike line = true) :
    Line.isBlankLine new = false := by
  refine @visible_of_isPropertyLike st _ style.tabStop ?_
  rw [h.role, h.property, hproperty]

/-- A line of a rule is a declaration inside of it, and no brace syntax. -/
@[mk_iff] structure Declares (config : FormatConfig) (inKeyframes : Bool) (l : RuleLine) : Prop where
  depth : l.depth = 1
  declaration : (Line.isProperty l.text || Line.isVariable l.text) = true
  point : (inKeyframes && Line.isKeyframePoint l.text) = false
  spaced : config.spaceAfterColon = true → Line.hasSpaceAfterColon l.text = true
  braces : Line.isBraceSyntax l.text false = false

instance (config : FormatConfig) (inKeyframes : Bool) (l : RuleLine) :
    Decidable (Declares config inKeyframes l) := decidable_of_iff' _ (declares_iff ..)

/-- What is asked of a line of brace syntax: conversion does not change what it is taken
    for, and a selector that is nested under another one has room there. -/
@[mk_iff] structure Tidy (config : FormatConfig) (style : IndentStyle) (st : FormatState) (line : Text) :
    Prop where
  keeps : Keeps style st line (converted config style st line).text
  spaced : spaced config (LineRole.ofLine style.tabStop st line).1
    (converted config style st line).text = (converted config style st line).text
  room : (LineRole.ofLine style.tabStop st line).1.isHeader line = true →
    (converted config style st line).nested = true →
      convertedColumn style st line true ≤ st.headerLimit
  columns : ∀ new ∈ unbraced config style st line, Indent.width style.tabStop new < 2 ^ 50

instance (config : FormatConfig) (style : IndentStyle) (st : FormatState) (line : Text) :
    Decidable (Tidy config style st line) := decidable_of_iff' _ (tidy_iff ..)

/-! ## Converted headers -/

/-- The state behind a header at a column. -/
def underHeader (style : IndentStyle) (st : FormatState) (isKeyframes : Bool) (column : Nat) :
    FormatState :=
  { st with
    propertyColumn := column + style.tabStop
    headerLimit := column + style.tabStop
    inKeyframes := isKeyframes
    keyframeColumn := if isKeyframes then column + style.tabStop else st.keyframeColumn
    keepBlanks := false }

variable (line) in
/-- The column of a converted header is a tab stop. -/
theorem Settled.dvd_convertedColumn (hst : Settled style.tabStop (bare st)) (nested : Bool) :
    style.tabStop ∣ convertedColumn style st line nested := by
  refine Nat.dvd_add (Indent.dvd_snapColumn _ false hst.limit_dvd) ?_
  split
  · exact Nat.dvd_refl _
  · exact Nat.dvd_zero _

/-- It is within the limit when a nested header has room. -/
theorem convertedColumn_le {nested : Bool}
    (hroom : nested = true → convertedColumn style st line true ≤ st.headerLimit) :
    convertedColumn style st line nested ≤ st.headerLimit := by
  cases nested with
  | true => exact hroom rfl
  | false => exact Indent.snapColumn_le_limit ..

variable (config index line) in
/-- The new text of a line that was changed. -/
theorem newText?_of_any {offset : Int} {how : LineChange} (moved : FormatEvent)
    (hany : how.any = true) (hoffset : offset = (column : Int) - Indent.width style.tabStop text)
    (htrim : Text.trimEnd text = text) :
    ∃ event, newText? config style index line text offset how moved =
      some (if Indent.width style.tabStop text = column then trimmed config text
        else (Indent.ofColumn style column ++ text.body).trimEnd, event) := by
  have htrimmed := trimmed_eq_self config htrim
  unfold newText?
  by_cases hcolumn : Indent.width style.tabStop text = column
  · rw [if_neg (by omega), if_pos hcolumn, htrim, htrimmed, hany, if_pos rfl]
    split
    · exact ⟨_, rfl⟩
    · exact ⟨_, rfl⟩
  · have hto : ((Indent.width style.tabStop text : Int) + offset).toNat = column := by omega
    rw [if_pos (by omega), if_neg hcolumn, reindent, hto]
    exact ⟨_, rfl⟩

variable (st index) in
theorem formatHeader_converted (ht : style.tabStop < 2 ^ 50) (hlimit : st.headerLimit < 2 ^ 63)
    (hline : Indent.width style.tabStop line < 2 ^ 50) (hreset : role.isReset = false)
    (hconverts : converts config st line = true) {new : Converted}
    (hnew : convertBraces line st.lastSelector = new)
    (hcolumn : Indent.width style.tabStop new.text = Indent.width style.tabStop line)
    (hvisible : Line.isBlankLine new.text = false) :
    bare (formatHeader config style role st index line).state =
        underHeader style (bare st) role.isKeyframes (convertedColumn style st line new.nested) ∧
      (formatHeader config style role st index line).edit? =
        replaceLine index line
          (placed config style (convertedColumn style st line new.nested) new.text ++
            ruleLines style (convertedColumn style st line new.nested) new.lines) := by
  have hsnap := Indent.snapOffset_eq style.tabStop_pos ht (.inl hline) hlimit false
  have htrim : new.text.trimEnd = new.text := hnew ▸ trimEnd_convertBraces line st.lastSelector
  have hto : ((Indent.width style.tabStop line : Int) + (Indent.snapOffset style.tabStop
      (Indent.width style.tabStop line) st.headerLimit false +
        if new.nested = true then (style.tabStop : Int) else 0)).toNat =
      convertedColumn style st line new.nested := by
    unfold convertedColumn
    split <;> omega
  obtain ⟨pre, hpre, -, hwidth, -⟩ := withNormalIndent_spec config style new.text
  have hoffset : Indent.snapOffset style.tabStop (Indent.width style.tabStop line) st.headerLimit
      false + (if new.nested = true then (style.tabStop : Int) else 0) =
        (convertedColumn style st line new.nested : Int) -
          Indent.width style.tabStop (withNormalIndent config style new.text).1 := by
    rw [hpre, hwidth, hcolumn, hsnap]
    unfold convertedColumn
    split <;> omega
  have hany : LineChange.any ⟨true, false, (withNormalIndent config style new.text).2⟩ = true := rfl
  obtain ⟨event, hwritten⟩ := newText?_of_any config line index
    (.snap index ⟨true, false, (withNormalIndent config style new.text).2⟩) hany hoffset
    (trimEnd_withNormalIndent hvisible htrim)
  simp only [formatHeader, hconverts, if_true, hnew, hreset, Bool.false_eq_true, if_false, hto,
    hwritten, ← placed_eq]
  exact ⟨rfl, trivial⟩

theorem spaced_eq (config : FormatConfig) (role : LineRole) (line : Text) :
    (if (role.isDeclaration && !Line.hasSpaceAfterColon line && config.spaceAfterColon) = true then
      Line.spaceAfterColon line else line) = spaced config role line := by
  unfold spaced
  cases hspace : Line.hasSpaceAfterColon line with
  | false => simp
  | true => simp [Line.spaceAfterColon_of_hasSpace hspace]

variable (st index) in
theorem formatProperty_converted (hlimit : st.propertyColumn < 2 ^ 63)
    (hline : Indent.width style.tabStop line < 2 ^ 50) (hcomment : Line.isComment line = false)
    (hconverts : converts config st line = true) {new : Text}
    (hnew : (convertBraces (spaced config role line) st.lastSelector).text = new)
    (hcolumn : Indent.width style.tabStop new = Indent.width style.tabStop line)
    (hvisible : Line.isBlankLine new = false) :
    bare (formatProperty config style role st index line).state =
        bare { propertyState style st line with
          propertyColumn := nextProperty style role (propertyState style st line) } ∧
      (formatProperty config style role st index line).edit? = replaceLine index line
        (placed config style (propertyState style st line).propertyColumn new) := by
  have hlimit' : (propertyState style st line).propertyColumn < 2 ^ 63 := by
    unfold propertyState
    split
    · exact Nat.two_pow_pos 63
    · exact hlimit
  have hconverts' : converts config (propertyState style st line) line = true := by
    rw [← hconverts]
    unfold propertyState
    split <;> rfl
  have hselector : (propertyState style st line).lastSelector = st.lastSelector := by
    unfold propertyState
    split <;> rfl
  have hoffset : Indent.moveOffset style.tabStop (propertyState style st line).propertyColumn line =
      ((propertyState style st line).propertyColumn : Int) - Indent.width style.tabStop line :=
    Indent.countDiff_eq hlimit' (by omega)
  have hstate : (if (Line.isVariable line && Indent.width style.tabStop line == 0) = true then
      ({ st with propertyColumn := 0, headerLimit := 0 } : FormatState) else st) =
        propertyState style st line := rfl
  have htrim : new.trimEnd = new := hnew ▸ trimEnd_convertBraces _ st.lastSelector
  simp only [formatProperty, hstate, spaced_eq, hconverts', hselector, hnew, hcomment, if_true,
    Bool.false_eq_true, if_false, hoffset]
  refine ⟨(congrArg bare ofNewText?_eq.1).trans rfl, ofNewText?_eq.2.trans (congrArg _ ?_)⟩
  generalize propertyState style st line = st' at *
  obtain ⟨pre, hpre, -, hindent, -⟩ := withNormalIndent_spec config style new
  by_cases hmove : Indent.width style.tabStop line = st'.propertyColumn
  · -- the line stays where it is
    have hzero : (st'.propertyColumn : Int) - Indent.width style.tabStop line = 0 := by omega
    simp only [if_pos hzero]
    rw [placed_eq]
    refine newText?_eq _ ?_ (fun hany => ?_) fun _ => trimEnd_withNormalIndent hvisible htrim
    · rw [hpre, hindent, hcolumn]
    · cases hany
  · have hnonzero : ¬(st'.propertyColumn : Int) - Indent.width style.tabStop line = 0 := by omega
    simp only [if_neg hnonzero]
    refine (newText?_eq _ (by rw [hcolumn]) (fun hany => ?_) fun _ => htrim).trans ?_
    · cases hany
    · rw [placed, hcolumn, if_neg hmove, if_neg hmove]

theorem isMark_of_not_isComment (h : Line.isComment line = false) (mark : Char) :
    Line.isMark mark line = false := by
  rw [Line.isComment, Bool.or_eq_false_iff] at h
  exact isMark_of_traits rfl h.1 mark

/-- A line that is no comment is code where the line before it let it be. -/
theorem isCode_of_not_isComment (h : Line.isComment line = false) (hignore : st.ignoreNext = false)
    (hcomment : st.inBlockComment = false) : isCode st line = true := by
  have hmark := isMark_of_not_isComment h 'I'
  rw [Line.isComment, Bool.or_eq_false_iff] at h
  rw [isCode, hignore, hcomment, h.2, Line.isIgnoreMark, hmark]
  rfl

theorem codeState_of_not_isComment (h : Line.isComment line = false) :
    codeState style st line = (LineRole.ofLine style.tabStop st line).2 := by
  rw [codeState, Line.isSpaceMark, isMark_of_not_isComment h]
  rfl

/-- A header that stands in its place opens a block there. -/
theorem advance_of_isHeader (ht : style.tabStop < 2 ^ 50) (hcode : isCode st line = true)
    (hcomment : Line.isComment line = false)
    (hheader : (LineRole.ofLine style.tabStop st line).1.isHeader line = true)
    (hdvd : style.tabStop ∣ column) (hcolumn : Indent.width style.tabStop line = column)
    (hle : column ≤ st.headerLimit) (hexact : column ≤ 2 ^ 50 + 4 * style.tabStop)
    (hplaced : placed config style column line = line) :
    advance config style st line =
      (underHeader style st (Line.isKeyframes line) column, line) := by
  have hreset : (LineRole.ofLine style.tabStop st line).1.isReset = false :=
    isMark_of_not_isComment hcomment 'R'
  have hstays : Indent.snapColumn style.tabStop column
      (LineRole.ofLine style.tabStop st line).2.headerLimit false = column :=
    Indent.snapColumn_of_dvd style.tabStop_pos ht hdvd hexact fun _ => hle
  rw [advance_of_isCode hcode, advanceCode, if_pos hheader, codeState_of_not_isComment hcomment]
  simp only [header, hcolumn, hreset, hstays, hplaced, Bool.false_eq_true, if_false]
  rfl

theorem placed_ofColumn (config : FormatConfig) (style : IndentStyle) (column : Nat)
    (hwidth : Indent.width style.tabStop text = 0) (hne : text ≠ []) (htrim : text.trimEnd = text) :
    placed config style column (Indent.ofColumn style column ++ text) =
      Indent.ofColumn style column ++ text := by
  have hcolumn : Indent.width style.tabStop (Indent.ofColumn style column ++ text) = column := by
    rw [Indent.width_ofColumn, hwidth, Nat.add_zero]
  have hend : (Indent.ofColumn style column ++ text).trimEnd =
      Indent.ofColumn style column ++ text := by
    rw [Text.trimEnd_append (by rw [htrim]; exact hne), htrim]
  have hsame : (withNormalIndent config style (Indent.ofColumn style column ++ text)).1 =
      Indent.ofColumn style column ++ text := by
    obtain ⟨c, rest, rfl⟩ := List.exists_cons_of_ne_nil hne
    have hc : isBlank c = false := by
      refine Bool.eq_false_iff.2 fun hblank => ?_
      exact absurd (Text.width_pos style.tabStop_pos hblank) (by rw [hwidth]; exact Nat.lt_irrefl 0)
    unfold withNormalIndent
    rw [if_neg]
    rw [hasNormalIndent, hcolumn, Text.blanks,
      List.takeWhile_append_of_pos (Indent.blanks_ofColumn style column),
      List.takeWhile_cons_of_neg (by simp [hc]), List.append_nil]
    simp
  rw [placed, if_pos hcolumn, hsame, trimmed]
  split
  · exact hend
  · rfl

/-- A declaration does not begin with `@`. -/
theorem headIs_of_isDeclaration (h : (Line.isProperty line || Line.isVariable line) = true) :
    ∀ rest, line.body ≠ '@' :: rest := by
  intro rest hbody
  have hname : Line.nameAndColon? ('@' :: rest) = none := by
    rw [Line.nameAndColon?, List.takeWhile_cons_of_neg (by decide)]
  simp [Line.isProperty, Line.plainName?, Line.isVariable, Line.variableName?, hbody, hname] at h

theorem not_isComment_of_isDeclaration
    (h : (Line.isProperty line || Line.isVariable line) = true) : Line.isComment line = false := by
  refine Bool.eq_false_iff.2 fun hcomment => ?_
  have hinert := Line.isInert_of_isComment hcomment
  rw [show Line.isProperty line = false from congrArg Line.Traits.isProperty hinert,
    show Line.isVariable line = false from congrArg Line.Traits.isVariable hinert] at h
  cases h

/-- The role of a declaration. -/
theorem ofLine_of_isDeclaration (h : (Line.isProperty line || Line.isVariable line) = true)
    (hpoint : (st.inKeyframes && Line.isKeyframePoint line) = false) (tab : Nat) :
    LineRole.ofLine tab st line = (⟨false, false, false, false, false, true⟩, st) := by
  have hhead := headIs_of_isDeclaration h
  have hreset : Line.isResetMark line = false :=
    isMark_of_not_isComment (not_isComment_of_isDeclaration h) 'R'
  have hrule : ∀ words, Line.hasAtRule words line = false := by
    intro words
    unfold Line.hasAtRule
    split
    · exact absurd ‹_› (hhead _)
    · rfl
  have hkeyframes : Line.isKeyframes line = false := by
    unfold Line.isKeyframes
    split
    · exact absurd ‹_› (hhead _)
    · exact absurd ‹_› (hhead _)
    · rfl
  simp [LineRole.ofLine, hpoint, hreset, hkeyframes, h, Line.isIfOrElse, Line.isElse, hrule]

/-- A declaration that stands at the column of the properties stays there and changes nothing. -/
theorem stands_of_isDeclaration (hcode : isCode st line = true)
    (hdeclaration : (Line.isProperty line || Line.isVariable line) = true)
    (hpoint : (st.inKeyframes && Line.isKeyframePoint line) = false)
    (hcolumn : Indent.width style.tabStop line = st.propertyColumn) (hpos : 0 < st.propertyColumn)
    (hspace : config.spaceAfterColon = true → Line.hasSpaceAfterColon line = true)
    (hbraces : Line.isBraceSyntax line false = false) :
    Stands config style st line ∧ (advance config style st line).1 = st := by
  have hrole := ofLine_of_isDeclaration hdeclaration hpoint style.tabStop
  have hheader : (LineRole.ofLine style.tabStop st line).1.isHeader line = false := by
    rw [hrole]
    rfl
  have hproperty : (LineRole.ofLine style.tabStop st line).1.isPropertyLike line = true := by
    rw [hrole]
    rfl
  have htreatment : treatment style st line = .property := by
    simp only [isCode, Bool.and_eq_true, Bool.not_eq_true'] at hcode
    obtain ⟨⟨⟨hignore, hcomment⟩, hopens⟩, hmark⟩ := hcode
    simp [treatment, hignore, hcomment, hopens, hmark, hheader, hproperty]
  have hcodeState : codeState style st line = st := by
    rw [codeState_of_not_isComment (not_isComment_of_isDeclaration hdeclaration), hrole]
  have hstate : propertyState style st line = st := by
    refine if_neg ?_
    rw [hcolumn, Bool.and_eq_true, beq_iff_eq]
    omega
  refine ⟨⟨?_, ?_, hbraces⟩, ?_⟩
  · rw [destination, htreatment]
    dsimp only
    rw [hcodeState, hstate, hcolumn]
  · unfold spaced
    split
    · rename_i h
      exact Line.spaceAfterColon_of_hasSpace (hspace (Bool.and_eq_true_iff.1 h).2)
    · rfl
  · rw [(advance_of_property config htreatment).2, property, hcodeState, hstate, hrole]
    simp [nextProperty]

/-! ## Converted lines -/

theorem visible_rule {l : RuleLine} {x : Text} (h : l.Cut x) : Line.isBlankLine l.text = false := by
  refine Bool.eq_false_iff.2 fun hblank => ?_
  have hnil : l.text = [] := by
    rw [← h.trimEnd_text]
    exact Text.trimEnd_white (Line.white_of_isBlankLine hblank) []
  exact h.text_ne_nil hnil

variable (config style column) in
/-- A converted header and the lines of its rule are not blank. -/
theorem visible_placed_rules {head : Text} {lines : List RuleLine}
    (hvisible : Line.isBlankLine head = false) (hcut : ∀ l ∈ lines, ∃ x, l.Cut x) :
    ∀ new ∈ placed config style column head :: lines.map fun l =>
        Indent.ofColumn style (column + style.tabStop * l.depth) ++ l.text,
      Line.isBlankLine new = false := by
  intro new hnew
  rcases List.mem_cons.1 hnew with rfl | hnew
  · exact (congrArg Line.Traits.isBlankLine (traits_placed config style column hvisible)).trans hvisible
  · obtain ⟨l, hl, rfl⟩ := List.mem_map.1 hnew
    obtain ⟨x, hx⟩ := hcut l hl
    rw [Line.isBlankLine_blanks (Indent.blanks_ofColumn style _)]
    exact visible_rule hx

/-- A line of a rule is written in its column, without white space at its end. -/
theorem neat_rule {l : RuleLine} {x : Text} (h : l.Cut x) (config : FormatConfig)
    (style : IndentStyle) (column : Nat) :
    Neat config style (Indent.ofColumn style column ++ l.text) := by
  constructor
  · rw [Text.trimEnd_append (by rw [h.trimEnd_text]; exact h.text_ne_nil), h.trimEnd_text]
  · rw [Indent.width_ofColumn, h.width_text, Nat.add_zero]
    exact placed_ofColumn config style column (h.width_text _) h.text_ne_nil h.trimEnd_text

variable (style column) in
/-- A declaration of a rule stands in its place. -/
theorem stands_of_declares {l : RuleLine} {x : Text} {inKeyframes : Bool}
    (hl : Declares config inKeyframes l) (hcut : l.Cut x) (hignore : st.ignoreNext = false)
    (hcomment : st.inBlockComment = false) :
    Stands config style (underHeader style st inKeyframes column)
        (Indent.ofColumn style (column + style.tabStop * l.depth) ++ l.text) ∧
      (advance config style (underHeader style st inKeyframes column)
        (Indent.ofColumn style (column + style.tabStop * l.depth) ++ l.text)).1 =
      underHeader style st inKeyframes column := by
  have htab := style.tabStop_pos
  rw [hl.depth, Nat.mul_one]
  have hblanks : Blanks (Indent.ofColumn style (column + style.tabStop)) :=
    Indent.blanks_ofColumn style _
  have htraits := Line.traits_blanks hblanks l.text
  have hwidth := Indent.width_ofColumn style (column + style.tabStop) l.text
  rw [hcut.width_text, Nat.add_zero] at hwidth
  have hspace := Line.hasSpaceAfterColon_blanks hblanks l.text
  generalize Indent.ofColumn style (column + style.tabStop) ++ l.text = new at *
  have hdeclaration : (Line.isProperty new || Line.isVariable new) = true := by
    rw [show Line.isProperty new = _ from congrArg Line.Traits.isProperty htraits,
      show Line.isVariable new = _ from congrArg Line.Traits.isVariable htraits]
    exact hl.declaration
  refine stands_of_isDeclaration ?_ hdeclaration ?_ hwidth ?_ ?_ ?_
  · exact isCode_of_not_isComment (not_isComment_of_isDeclaration hdeclaration) hignore hcomment
  · rw [show Line.isKeyframePoint new = _ from congrArg Line.Traits.isKeyframePoint htraits]
    exact hl.point
  · exact Nat.lt_of_lt_of_le htab (Nat.le_add_left ..)
  · exact fun hconfig => hspace.trans (hl.spaced hconfig)
  · exact (congrArg Line.Traits.isBraceSyntax htraits).trans hl.braces

variable (style column) in
/-- The declarations of a rule stand where they are written. -/
theorem allStand_of_declares {lines : List RuleLine} {inKeyframes : Bool}
    (hlines : ∀ l ∈ lines, Declares config inKeyframes l ∧ ∃ x, l.Cut x)
    (hignore : st.ignoreNext = false) (hcomment : st.inBlockComment = false) :
    AllStand config style (underHeader style st inKeyframes column) (lines.map fun l =>
        Indent.ofColumn style (column + style.tabStop * l.depth) ++ l.text) := by
  induction lines with
  | nil => trivial
  | cons l rest ih =>
    obtain ⟨hl, x, hcut⟩ := hlines l (List.mem_cons_self ..)
    obtain ⟨hstands, hstate⟩ := stands_of_declares style column hl hcut hignore hcomment
    refine ⟨hstands, ?_⟩
    rw [hstate]
    exact ih fun m hm => hlines m (List.mem_cons_of_mem l hm)

/-- The lines below a header and the header, one after the other. -/
theorem unlines_cons_rules (style : IndentStyle) (column : Nat) (head : Text)
    (lines : List RuleLine) :
    Text.unlines (head :: lines.map fun l =>
        Indent.ofColumn style (column + style.tabStop * l.depth) ++ l.text) =
      head ++ ruleLines style column lines := by
  induction lines generalizing head with
  | nil => simp [ruleLines]
  | cons l rest ih =>
    rw [List.map_cons, Text.unlines_cons_cons, ih]
    simp [ruleLines]

theorem drops_of_visible (h : Line.isBlankLine line = false) :
    drops config st line next? = false := by
  rw [drops, h, Bool.and_false, Bool.false_and]

/-- No line is dropped that is not blank. -/
theorem any_drops_of_visible {news : List Text}
    (h : ∀ new ∈ news, Line.isBlankLine new = false) :
    (news.any fun new => drops config st new next?) = false := by
  rw [List.any_eq_false]
  intro new hnew
  rw [drops_of_visible (h new hnew)]
  exact Bool.false_ne_true

/-- The first of the lines put into its place. -/
def putFirst (config : FormatConfig) (style : IndentStyle) (st : FormatState) :
    List Text → List Text
  | [] => []
  | first :: rest => (advance config style st first).2 :: rest

/-- What a line of brace syntax does to the text, given the lines that it is converted to: they
    take its place, the first of them where the formatter puts it. -/
def Follows (config : FormatConfig) (style : IndentStyle) (st : FormatState) (index : Nat)
    (line : Text) (after? : Option Text) (news : List Text) (result : LineResult) : Prop :=
  Settled style.tabStop (bare result.state) ∧
    result.edit? = if news.any fun new => drops config (bare st) new after? then
        some (removeLine index)
      else replaceLine index line (Text.unlines (putFirst config style (bare st) news))

/-- In the state `s` the first of the lines goes where it goes in `st`, and the others stand
    below it. -/
def InPlace (config : FormatConfig) (style : IndentStyle) (st s : FormatState) : List Text → Prop
  | [] => True
  | first :: rest => Agrees style st s first ∧
    AllStand config style (advance config style s first).1 rest

instance decidableInPlace (config : FormatConfig) (style : IndentStyle) (st s : FormatState) :
    ∀ news : List Text, Decidable (InPlace config style st s news)
  | [] => inferInstanceAs (Decidable True)
  | _ :: _ => inferInstanceAs (Decidable (_ ∧ _))

theorem InPlace.advanceAll {news : List Text} (h : InPlace config style st s news)
    (hneat : ∀ new ∈ news.tail, Neat config style new) :
    (Format.advanceAll config style s news).2 = putFirst config style st news := by
  cases news with
  | nil => rfl
  | cons first rest =>
    exact congrArg₂ (· :: ·) (h.1.advance_snd config) (advanceAll_of_allStand h.2 hneat)

section

variable (ht : style.tabStop < 2 ^ 50) (hst : Settled style.tabStop (bare st))
  (hwidth : Indent.width style.tabStop line < 2 ^ 50) (hcode : isCode st line = true)
  (hconverts : converts config st line = true) (htidy : Tidy config style st line)

include hconverts in
theorem not_isComment_of_converts : Line.isComment line = false := by
  simp only [converts, Bool.and_eq_true, Bool.not_eq_true'] at hconverts
  exact hconverts.2

include hcode in
theorem flags_of_isCode : st.ignoreNext = false ∧ st.inBlockComment = false := by
  simp only [isCode, Bool.and_eq_true, Bool.not_eq_true'] at hcode
  exact ⟨hcode.1.1.1, hcode.1.1.2⟩

include htidy hcode in
/-- The converted line is code in the role of the line. -/
theorem Tidy.ofLine_bare :
    isCode (bare st) (converted config style st line).text = true ∧
      LineRole.ofLine style.tabStop (bare st) (converted config style st line).text =
        ((LineRole.ofLine style.tabStop st line).1, bare (LineRole.ofLine style.tabStop st line).2) := by
  obtain ⟨hignore, hcomment⟩ := flags_of_isCode hcode
  refine ⟨isCode_of_not_isComment htidy.keeps.code hignore hcomment, ?_⟩
  rw [← htidy.keeps.role]
  rfl

variable (config) in
include ht hcode in
/-- A converted header that stands in its place opens the block of the header. -/
theorem Keeps.advance_placed {new : Text} (hkeeps : Keeps style st line new)
    (hheader : (LineRole.ofLine style.tabStop st line).1.isHeader line = true)
    (hdvd : style.tabStop ∣ column) (hle : column ≤ st.headerLimit) (hexact : column < 2 ^ 50) :
    advance config style (bare st) (placed config style column new) =
      (underHeader style (bare st) (Line.isKeyframes line) column, placed config style column new) := by
  obtain ⟨hignore, hcomment⟩ := flags_of_isCode hcode
  have hvisible := hkeeps.visible_of_header hheader
  have htraits := traits_placed config style column hvisible
  have hplaced := placed_placed config style column hvisible
  have hcolumn := width_placed config style column hvisible
  generalize placed config style column new = head at *
  have hnot : Line.isComment head = false := by
    rw [Line.isComment, show Line.isLineComment head = _ from
      congrArg Line.Traits.isLineComment htraits, show Line.opensBlockComment head = _ from
      congrArg Line.Traits.opensBlockComment htraits]
    exact hkeeps.code
  have hrole : LineRole.ofLine style.tabStop st head = LineRole.ofLine style.tabStop st line := by
    rw [ofLine_congr htraits, hkeeps.role]
    rw [Line.isResetMark, isMark_of_not_isComment hnot, Line.isResetMark,
      isMark_of_not_isComment hkeeps.code]
  have hkeyframes : Line.isKeyframes head = Line.isKeyframes line := congrArg (·.1.isKeyframes) hrole
  rw [← hkeyframes]
  refine advance_of_isHeader ht (isCode_of_not_isComment hnot hignore hcomment) hnot ?_ hdvd hcolumn
    hle (by omega) hplaced
  rw [show (LineRole.ofLine style.tabStop (bare st) head).1 =
    (LineRole.ofLine style.tabStop st head).1 from rfl, hrole, isHeader_congr htraits, hkeeps.header,
    hheader]

include ht hst hwidth hcode hconverts htidy in
theorem formatHeader_follows
    (hheader : (LineRole.ofLine style.tabStop st line).1.isHeader line = true) :
    Follows config style st index line after? (unbraced config style st line)
      (formatHeader config style (LineRole.ofLine style.tabStop st line).1 (codeState style st line)
        index line) := by
  have hnot := not_isComment_of_converts hconverts
  have hreset : (LineRole.ofLine style.tabStop st line).1.isReset = false :=
    isMark_of_not_isComment hnot 'R'
  have hdeclaration : (LineRole.ofLine style.tabStop st line).1.isDeclaration = false := by
    simp only [LineRole.isHeader, Bool.and_eq_true, Bool.not_eq_true', Bool.or_eq_false_iff] at hheader
    exact hheader.1.1.1
  have hnew : convertBraces line st.lastSelector = converted config style st line :=
    (converted_eq hdeclaration).symm
  have hcolumns := htidy.columns
  have hkeeps := htidy.keeps
  have hroom := htidy.room hheader
  rw [unbraced, hcode, hconverts, Bool.and_self, if_pos rfl, if_pos hheader] at hcolumns ⊢
  dsimp only at hcolumns ⊢
  generalize converted config style st line = new at *
  have hvisible := hkeeps.visible_of_header hheader
  have hlimit : st.headerLimit < 2 ^ 63 := by
    have hle := hst.limit_le
    rw [show (bare st).headerLimit = st.headerLimit from rfl] at hle
    omega
  have hdvd := hst.dvd_convertedColumn line new.nested
  have hle := convertedColumn_le hroom
  -- the header is written to its column, the declarations below it
  rw [codeState_of_not_isComment hnot]
  obtain ⟨hstate, hedit⟩ := formatHeader_converted (LineRole.ofLine style.tabStop st line).2 index ht
    hlimit hwidth hreset hconverts hnew (hkeeps.column hvisible) hvisible
  rw [show convertedColumn style (LineRole.ofLine style.tabStop st line).2 line new.nested =
    convertedColumn style st line new.nested from rfl] at hstate hedit
  generalize convertedColumn style st line new.nested = column at *
  have hexact := hcolumns _ (List.mem_cons_self ..)
  rw [width_placed config style column hvisible] at hexact
  have hcut : ∀ l ∈ new.lines, ∃ x, l.Cut x := by
    intro l hl
    obtain ⟨x, -, hcut⟩ := (convertBraces_spec line st.lastSelector).2 l (hnew ▸ hl)
    exact ⟨x, hcut⟩
  have hadvance := hkeeps.advance_placed config ht hcode hheader hdvd hle hexact
  have hsettled : Settled style.tabStop (advance config style (bare st)
      (placed config style column new.text)).1 :=
    hst.advance config ht (by rwa [width_placed config style column hvisible])
  rw [Follows, putFirst, unlines_cons_rules, hedit, hstate,
    any_drops_of_visible (visible_placed_rules config style column hvisible hcut),
    if_neg Bool.false_ne_true]
  rw [hadvance] at hsettled ⊢
  exact ⟨hsettled, rfl⟩

include ht hst hwidth hcode hconverts htidy in
theorem formatProperty_follows
    (hheader : (LineRole.ofLine style.tabStop st line).1.isHeader line = false)
    (hproperty : (LineRole.ofLine style.tabStop st line).1.isPropertyLike line = true) :
    Follows config style st index line after? (unbraced config style st line)
      (formatProperty config style (LineRole.ofLine style.tabStop st line).1
        (codeState style st line) index line) := by
  have hnot := not_isComment_of_converts hconverts
  obtain ⟨hcode', hrole⟩ := htidy.ofLine_bare hcode
  have hkeeps := htidy.keeps
  have hspaced := htidy.spaced
  have hvisible := hkeeps.visible_of_property hproperty
  have hlimit : (LineRole.ofLine style.tabStop st line).2.propertyColumn < 2 ^ 63 := by
    have hle := (hst.codeState_stop line).2
    rw [codeState_of_not_isComment hnot] at hle
    exact Nat.lt_of_le_of_lt hle (by omega)
  obtain ⟨hstate, hedit⟩ := formatProperty_converted (LineRole.ofLine style.tabStop st line).2 index
    hlimit hwidth hnot hconverts rfl (hkeeps.column hvisible) hvisible
  have hcolumns := htidy.columns
  rw [unbraced, hcode, hconverts, Bool.and_self, if_pos rfl, if_neg (by simp [hheader])]
    at hcolumns ⊢
  rw [codeState_of_not_isComment hnot]
  rw [show (convertBraces (spaced config (LineRole.ofLine style.tabStop st line).1 line)
    (LineRole.ofLine style.tabStop st line).2.lastSelector) = converted config style st line from rfl]
    at hedit
  generalize (converted config style st line).text = new at *
  -- the converted line is put into the same place
  have hplace : propertyState style (bare (LineRole.ofLine style.tabStop st line).2) new =
      bare (propertyState style (LineRole.ofLine style.tabStop st line).2 line) := by
    unfold propertyState
    rw [hkeeps.isVariable, hkeeps.column hvisible]
    split <;> rfl
  have hadvance : advance config style (bare st) new =
      (bare { propertyState style (LineRole.ofLine style.tabStop st line).2 line with
        propertyColumn := nextProperty style (LineRole.ofLine style.tabStop st line).1
          (propertyState style (LineRole.ofLine style.tabStop st line).2 line) },
      placed config style
        (propertyState style (LineRole.ofLine style.tabStop st line).2 line).propertyColumn new) := by
    rw [advance_of_isCode hcode', advanceCode, codeState_of_not_isComment hkeeps.code, hrole]
    dsimp only
    rw [hkeeps.header, hheader, if_neg Bool.false_ne_true, hkeeps.property, if_pos hproperty, property,
      hplace, hspaced]
    rfl
  have hsettled := hst.advance config ht (hcolumns new (List.mem_singleton_self new))
  rw [Follows]
  simp only [putFirst, hadvance, List.any_cons, List.any_nil, Bool.or_false,
    drops_of_visible hvisible, Bool.false_eq_true, if_false, Text.unlines_singleton]
  rw [hadvance] at hsettled
  exact ⟨hstate ▸ hsettled, hedit⟩

omit hconverts htidy in
variable (config st index line next?) in
/-- A line of brace syntax that is neither a header nor property-like; where nothing is
    left of it, it becomes a blank line. -/
theorem formatBraces_eq {new : Text} (hnew : (convertBraces line st.lastSelector).text = new) :
    bare (formatBraces config st index line next?).state = bare st ∧
      (formatBraces config st index line next?).edit? =
        if new.isAllWhite && next?.any (isRedundantBefore config st) then some (removeLine index)
        else replaceLine index line new := by
  have htrim : new.trimEnd = new := hnew ▸ trimEnd_convertBraces line st.lastSelector
  unfold formatBraces
  rw [hnew]
  dsimp only
  rw [show isRedundantBefore config { st with afterBraces := true } =
    isRedundantBefore config st from rfl]
  by_cases hwhite : new.isAllWhite = true
  · have hnil : new = [] := by
      rw [← htrim]
      exact Text.trimEnd_white (Line.white_of_isBlankLine hwhite) []
    rw [if_pos hwhite, hwhite, Bool.true_and, hnil]
    split <;> exact ⟨rfl, rfl⟩
  · rw [if_neg hwhite, htrim, if_neg (by simp [hwhite])]
    exact ⟨rfl, rfl⟩

include ht hst hcode hconverts htidy in
theorem formatBraces_follows
    (hheader : (LineRole.ofLine style.tabStop st line).1.isHeader line = false)
    (hproperty : (LineRole.ofLine style.tabStop st line).1.isPropertyLike line = false)
    (hnext : next?.any (isRedundantBefore config st) = after?.any (isRedundantBefore config st)) :
    Follows config style st index line after? (unbraced config style st line)
      (formatBraces config (codeState style st line) index line next?) := by
  have hnot := not_isComment_of_converts hconverts
  obtain ⟨hignore, hcomment⟩ := flags_of_isCode hcode
  obtain ⟨hcode', hrole⟩ := htidy.ofLine_bare hcode
  have hkeeps := htidy.keeps
  have hdeclaration : (LineRole.ofLine style.tabStop st line).1.isDeclaration = false := by
    simp only [LineRole.isPropertyLike, Bool.or_eq_false_iff] at hproperty
    exact hproperty.1.1.1.1.1
  have hnew : convertBraces line st.lastSelector = converted config style st line :=
    (converted_eq hdeclaration).symm
  have htrim := trimEnd_convertBraces line st.lastSelector
  rw [hnew] at htrim
  obtain ⟨hstate, hedit⟩ := formatBraces_eq config (LineRole.ofLine style.tabStop st line).2 line index
    next? (congrArg Converted.text hnew)
  have hcolumns := htidy.columns
  rw [unbraced, hcode, hconverts, Bool.and_self, if_pos rfl, if_neg (by simp [hheader])]
    at hcolumns ⊢
  rw [codeState_of_not_isComment hnot]
  generalize (converted config style st line).text = new at *
  have htrimmed := trimmed_eq_self config htrim
  have hadvance : advance config style (bare st) new =
      (bare (LineRole.ofLine style.tabStop st line).2, new) := by
    rw [advance_of_isCode hcode', advanceCode, codeState_of_not_isComment hkeeps.code, hrole]
    dsimp only
    rw [hkeeps.header, hheader, if_neg Bool.false_ne_true, hkeeps.property, hproperty,
      if_neg Bool.false_ne_true, htrimmed]
  have hdrops : drops config (bare st) new after? =
      (new.isAllWhite && next?.any (isRedundantBefore config st)) := by
    rw [hnext, drops, show (bare st).ignoreNext = st.ignoreNext from rfl,
      show (bare st).inBlockComment = st.inBlockComment from rfl, hignore, hcomment]
    rfl
  have hsettled := hst.advance config ht (hcolumns new (List.mem_singleton_self new))
  rw [Follows]
  simp only [putFirst, hadvance, List.any_cons, List.any_nil, Bool.or_false, hdrops,
    Text.unlines_singleton]
  rw [hadvance] at hsettled
  exact ⟨hstate ▸ hsettled, hedit⟩

end

theorem isBraceSyntax_of_isBlankLine (h : Line.isBlankLine line = true) (afterBraces : Bool) :
    Line.isBraceSyntax line afterBraces = false := by
  have hwhite : White (Line.code line) := by
    intro c hc
    refine Line.white_of_isBlankLine h c ?_
    rw [← Line.splitComment_append line]
    exact List.mem_append_left _ hc
  have hnil : (Line.code line).trimEnd = [] := Text.trimEnd_white hwhite []
  rw [Line.isBraceSyntax, hnil]
  cases afterBraces <;> rfl

/-- What is asked of a line in the state that it is formatted in, and in the state `s` in which
    the lines that it is converted to are formatted once more. -/
@[mk_iff] structure Tame (config : FormatConfig) (style : IndentStyle) (st s : FormatState)
    (line : Text) : Prop where
  plain : Plain (unconverted config) style line
  tidy : isCode st line = true → converts config st line = true → Tidy config style st line
  again : InPlace config style (bare st) s (unbraced config style st line)

instance (config : FormatConfig) (style : IndentStyle) (st s : FormatState) (line : Text) :
    Decidable (Tame config style st s line) := decidable_of_iff' _ (tame_iff ..)

variable (index) in
/-- Formatting a line is formatting the lines that it is converted to. -/
theorem formatLine_unbraced (ht : style.tabStop < 2 ^ 50) (hst : Settled style.tabStop (bare st))
    (hline : Tame config style st s line)
    (hnext : next?.any (isRedundantBefore config st) = after?.any (isRedundantBefore config st)) :
    Follows config style st index line after? (unbraced config style st line)
      (formatLine config style st index line next?) := by
  by_cases hconverted : (isCode st line && converts config st line) = true
  · obtain ⟨hcode, hconverts⟩ := Bool.and_eq_true_iff.1 hconverted
    have htidy := hline.tidy hcode hconverts
    have hwidth := hline.plain.column
    obtain ⟨-, hbraces, -⟩ := codeState_frame style st line
    rw [formatLine_of_isCode hcode, formatCode_codeState]
    by_cases hheader : (LineRole.ofLine style.tabStop st line).1.isHeader line = true
    · rw [if_pos hheader]
      exact formatHeader_follows ht hst hwidth hcode hconverts htidy hheader
    rw [if_neg hheader]
    rw [Bool.not_eq_true] at hheader
    by_cases hproperty : (LineRole.ofLine style.tabStop st line).1.isPropertyLike line = true
    · rw [if_pos hproperty]
      exact formatProperty_follows ht hst hwidth hcode hconverts htidy hheader hproperty
    rw [if_neg hproperty]
    rw [Bool.not_eq_true] at hproperty
    have hvisible : ¬Line.isBlankLine line = true := by
      intro hblank
      rw [converts, isBraceSyntax_of_isBlankLine hblank, Bool.and_false] at hconverts
      cases hconverts
    rw [if_neg hvisible, if_pos ((converts_congr hbraces).trans hconverts)]
    exact formatBraces_follows ht hst hcode hconverts htidy hheader hproperty hnext
  · have hplain : isCode st line = true → converts config st line = false := by
      intro hcode
      simpa [hcode] using hconverted
    obtain ⟨hstate, hedit⟩ := formatLine_eq_advance index next? ht hst hline.plain hplain
    have hdrops : drops config (bare st) line next? = drops config (bare st) line after? := by
      unfold drops
      rw [show isRedundantBefore config (bare st) = isRedundantBefore config st from rfl, hnext]
    rw [unbraced, if_neg hconverted, Follows, hstate, hedit, hdrops]
    refine ⟨hst.advance config ht hline.plain.column, ?_⟩
    simp [putFirst]

end IndentedSass.Format
