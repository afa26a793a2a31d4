/-
  The layout of formatted text.

  In a formatted text the columns of the lines follow from each other: headers stand on tab
  stops and are at most one tab stop deeper than the header before, properties stand one tab
  stop deeper than their header.

  * `Layout` is what the lines up to some place say of the lines that follow, told from the
    lines themselves (`Layout.next`); `Layout.Fits` says which column a line may have, and
    `Laid` that all lines of a text fit;
  * `Layout.Agrees`: the formatter has in mind what the lines that it wrote say, and every
    step keeps it so and writes a line that fits (`Layout.Agrees.advance`);
  * `laid_formatText`: the lines of a formatted text fit;
  * `not_laid_of_hidden_mark`: they may not where trimming a line uncovers a mark.
-/
import Mathlib
import IndentedSass.Proofs.Format.Idempotence

namespace IndentedSass

/-- A header as the lines below it see it. -/
structure LaidHeader where
  column : Nat
  /-- Whether it is a reset mark. -/
  isReset : Bool
  /-- Whether it opens a `@keyframes` block. -/
  isKeyframes : Bool
  deriving DecidableEq, Repr

/-- What some lines say of the lines that follow. -/
structure Layout where
  /-- The last header, if there was one. -/
  header? : Option LaidHeader := none
  /-- Whether a variable at column zero came after it. -/
  afterGlobal : Bool := false
  /-- Whether a block comment is open. -/
  inBlockComment : Bool := false
  /-- Whether the last line is an ignore mark. -/
  afterMark : Bool := false
  deriving DecidableEq, Repr

namespace Layout

/-- Whether the last header opens a `@keyframes` block. -/
def inKeyframes (l : Layout) : Bool := l.header?.any LaidHeader.isKeyframes

/-- What a line is after these lines. -/
def role (tab : Nat) (l : Layout) (line : Text) : LineRole :=
  (LineRole.ofLine tab { inKeyframes := l.inKeyframes } line).1

/-- The deepest column of a header that is no reset mark: zero for the first one. -/
def limit (tab : Nat) (l : Layout) : Nat :=
  match l.header? with
  | none => 0
  | some header => header.column + tab

/-- The column of properties: one tab stop deeper than the last header, that of a reset mark
    itself, and zero before any header and after a global variable. -/
def propertyColumn (tab : Nat) (l : Layout) : Nat :=
  match l.header? with
  | none => 0
  | some header =>
    if l.afterGlobal then 0
    else if header.isReset then header.column
    else header.column + tab

/-- What the lines say with one more line. -/
def next (tab : Nat) (l : Layout) (line : Text) : Layout :=
  if l.afterMark then { l with afterMark := false }
  else if l.inBlockComment then { l with inBlockComment := !Line.closesBlockComment line }
  else if Line.opensBlockComment line then { l with inBlockComment := Line.leavesCommentOpen line }
  else if Line.isIgnoreMark line then { l with afterMark := true }
  else if (l.role tab line).isHeader line then
    { l with
      header? := some ⟨Indent.width tab line, Line.isResetMark line, Line.isKeyframes line⟩
      afterGlobal := false }
  else if Line.isVariable line && Indent.width tab line == 0 then { l with afterGlobal := true }
  else l

/-- A line that is formatted stands where the lines before say: a header on a tab stop and,
    unless it is a reset mark, not too deep; a property-like line in the column of the
    properties, where a global variable counts itself.  In `@keyframes` blocks properties may
    stand elsewhere, and so may `@else`. -/
def Fits (tab : Nat) (l : Layout) (line : Text) : Prop :=
  l.afterMark = false → l.inBlockComment = false →
    if (l.role tab line).isHeader line then
      tab ∣ Indent.width tab line ∧
        (Line.isResetMark line = false → Indent.width tab line ≤ l.limit tab)
    else
      (l.role tab line).isPropertyLike line = true → l.inKeyframes = false →
        Line.isElse line = false → Indent.width tab line = (l.next tab line).propertyColumn tab

instance (tab : Nat) (l : Layout) (line : Text) : Decidable (l.Fits tab line) :=
  inferInstanceAs (Decidable (l.afterMark = false → l.inBlockComment = false →
    if (l.role tab line).isHeader line then
      tab ∣ Indent.width tab line ∧
        (Line.isResetMark line = false → Indent.width tab line ≤ l.limit tab)
    else
      (l.role tab line).isPropertyLike line = true → l.inKeyframes = false →
        Line.isElse line = false → Indent.width tab line = (l.next tab line).propertyColumn tab))

end Layout

/-- All lines fit. -/
def Laid (tab : Nat) : Layout → List Text → Prop
  | _, [] => True
  | l, line :: rest => l.Fits tab line ∧ Laid tab (l.next tab line) rest

instance decidableLaid (tab : Nat) :
    (l : Layout) → (lines : List Text) → Decidable (Laid tab l lines)
  | _, [] => isTrue trivial
  | l, line :: rest =>
    have := decidableLaid tab (l.next tab line) rest
    inferInstanceAs (Decidable (_ ∧ _))

namespace Layout

variable {config : FormatConfig} {style : IndentStyle} {st : FormatState} {l : Layout}
  {tab : Nat} {line new : Text} {lines : List Text}

/-! ## Layout and state -/

/-- The formatter has in mind what the lines say. -/
structure Agrees (tab : Nat) (l : Layout) (st : FormatState) : Prop where
  comment : l.inBlockComment = st.inBlockComment
  mark : l.afterMark = st.ignoreNext
  keyframes : l.inKeyframes = st.inKeyframes
  limit : st.headerLimit ≤ l.limit tab
  /-- Outside of `@keyframes` blocks headers can go where properties go. -/
  columns : st.inKeyframes = false →
    st.headerLimit = l.propertyColumn tab ∧ st.propertyColumn = l.propertyColumn tab

theorem agrees_start (tab : Nat) : Agrees tab {} {} where
  comment := rfl
  mark := rfl
  keyframes := rfl
  limit := Nat.le_refl 0
  columns := fun _ => ⟨rfl, rfl⟩

theorem propertyColumn_afterGlobal (tab : Nat) (l : Layout) :
    propertyColumn tab { l with afterGlobal := true } = 0 := by
  unfold propertyColumn
  cases l.header? <;> rfl

/-- Both see the same role of a line that is seen as another one. -/
theorem Agrees.role_eq (h : Agrees tab l st) (halike : Format.Alike line new) :
    l.role tab new = (LineRole.ofLine tab st line).1 := by
  rw [role, Format.ofLine_congr halike.traits halike.reset, h.keyframes]
  rfl

/-- A line that is neither a header nor property-like fits. -/
theorem fits_of_role (hheader : (l.role tab line).isHeader line = false)
    (hproperty : (l.role tab line).isPropertyLike line = false) : l.Fits tab line := by
  intro _ _
  rw [hheader, hproperty, if_neg Bool.false_ne_true]
  exact nofun

/-- Comments fit, unless they are reset marks. -/
theorem fits_of_isComment (hcomment : Line.isComment line = true)
    (hreset : Line.isResetMark line = false) : l.Fits tab line := by
  have hinert := Line.isInert_of_isComment hcomment
  have hrole : l.role tab line = ⟨false, false, false, false, false, false⟩ := by
    rw [role, Format.ofLine_of_isInert hinert, hreset]
  refine fits_of_role ?_ ?_
  · rw [hrole, Format.isHeader_of_isInert hinert]
  · rw [hrole, Format.isPropertyLike_of_isInert hinert]

/-! ## One step -/

/-- What a line of code says. -/
theorem next_of_code (tab : Nat) (hmark : l.afterMark = false) (hcomment : l.inBlockComment = false)
    (hopens : Line.opensBlockComment line = false) (hignore : Line.isIgnoreMark line = false) :
    l.next tab line =
      if (l.role tab line).isHeader line then
        { l with
          header? := some ⟨Indent.width tab line, Line.isResetMark line, Line.isKeyframes line⟩
          afterGlobal := false }
      else if Line.isVariable line && Indent.width tab line == 0 then { l with afterGlobal := true }
      else l := by
  rw [next, hmark, hcomment, hopens, hignore]
  rfl

/-- After a header its column counts. -/
theorem Agrees.header (h : Agrees style.tabStop l st) (role : LineRole) (line : Text) :
    Agrees style.tabStop
      { l with
        header? := some ⟨Indent.snapColumn style.tabStop (Indent.width style.tabStop line)
          (Format.codeState style st line).headerLimit role.isReset, role.isReset, role.isKeyframes⟩
        afterGlobal := false }
      (Format.header config style role (Format.codeState style st line) line).1 := by
  obtain ⟨hcomment, hmark⟩ := Format.codeState_flags style st line
  unfold Format.header
  generalize Indent.snapColumn style.tabStop (Indent.width style.tabStop line)
    (Format.codeState style st line).headerLimit role.isReset = column
  refine ⟨h.comment.trans hcomment.symm, h.mark.trans hmark.symm, rfl, ?_, fun _ => ⟨rfl, rfl⟩⟩
  dsimp only [Layout.limit]
  split
  · exact Nat.le_add_right column _
  · exact Nat.le_refl _

/-- A header fits where the limit of the headers lets it go. -/
theorem Agrees.fits_header (h : Agrees tab l st) (hst : Format.Settled tab st) (column : Nat)
    (hheader : (l.role tab new).isHeader new = true)
    (hwidth : Indent.width tab new =
      Indent.snapColumn tab column st.headerLimit (Line.isResetMark new)) : l.Fits tab new := by
  intro _ _
  rw [if_pos hheader, hwidth]
  refine ⟨Indent.dvd_snapColumn _ _ hst.limit_dvd, fun hnot => ?_⟩
  rw [hnot]
  exact Nat.le_trans (Indent.snapColumn_le_limit ..) h.limit

/-- What a property-like line says is what the formatter has in mind after it. -/
theorem Agrees.property (config : FormatConfig) (h : Agrees style.tabStop l st)
    (hvariable : Line.isVariable new = Line.isVariable line)
    (hwidth : Indent.width style.tabStop new =
      (Format.propertyState style (Format.codeState style st line) line).propertyColumn) :
    let l' :=
      if Line.isVariable new && Indent.width style.tabStop new == 0 then
        { l with afterGlobal := true }
      else l
    Agrees style.tabStop l' (Format.property config style (LineRole.ofLine style.tabStop st line).1
        (Format.codeState style st line) line).1 ∧
      (st.inKeyframes = false → Line.isElse line = false →
        Indent.width style.tabStop new = l'.propertyColumn style.tabStop) := by
  intro l'
  obtain ⟨hcomment, hmark⟩ := Format.codeState_flags style st line
  obtain ⟨hlimit, -, -, hkeyframes, -⟩ := Format.codeState_frame style st line
  have hframe : l'.inBlockComment = l.inBlockComment ∧ l'.afterMark = l.afterMark ∧
      l'.header? = l.header? := by
    dsimp only [l']
    split <;> exact ⟨rfl, rfl, rfl⟩
  have hinside : l'.inKeyframes = st.inKeyframes := by
    rw [← h.keyframes, inKeyframes, inKeyframes, hframe.2.2]
  have hlimits : l'.limit style.tabStop = l.limit style.tabStop := by
    rw [Layout.limit, Layout.limit, hframe.2.2]
  -- outside of `@keyframes` blocks only `@else` is a branch, and there are no keyframe points
  have hbranch : st.inKeyframes = false →
      (LineRole.ofLine style.tabStop st line).1.isBranch = Line.isElse line ∧
        (LineRole.ofLine style.tabStop st line).1.isKeyframePoint = false := by
    intro hin
    simp [LineRole.ofLine, hin]
  have hcolumn : st.inKeyframes = false → Line.isElse line = false →
      (Format.codeState style st line).propertyColumn = l.propertyColumn style.tabStop := by
    intro hin helse
    rw [Format.codeState_of_isPlain ((hbranch hin).1.trans helse) (hbranch hin).2]
    exact (h.columns hin).2
  unfold Format.property
  dsimp only
  by_cases hglobal : (Line.isVariable line && Indent.width style.tabStop line == 0) = true
  · have hstate : Format.propertyState style (Format.codeState style st line) line =
        { Format.codeState style st line with propertyColumn := 0, headerLimit := 0 } :=
      if_pos hglobal
    rw [hstate] at hwidth ⊢
    have hl' : l'.propertyColumn style.tabStop = 0 := by
      have hset : l' = { l with afterGlobal := true } := by
        refine if_pos ?_
        rw [hvariable, (Bool.and_eq_true_iff.1 hglobal).1, hwidth]
        rfl
      rw [hset, propertyColumn_afterGlobal]
    refine ⟨⟨?_, ?_, ?_, Nat.zero_le _, fun hin => ?_⟩, fun _ _ => hwidth.trans hl'.symm⟩
    · exact hframe.1.trans (h.comment.trans hcomment.symm)
    · exact hframe.2.1.trans (h.mark.trans hmark.symm)
    · exact hinside.trans hkeyframes.symm
    · rw [hl', Format.nextProperty, (hbranch (hkeyframes ▸ hin)).2]
      dsimp only at hin ⊢
      rw [hin]
      simp
  · have hstate : Format.propertyState style (Format.codeState style st line) line =
        Format.codeState style st line := if_neg hglobal
    rw [hstate] at hwidth ⊢
    -- a variable that comes to column zero finds the properties there
    have hl' : st.inKeyframes = false →
        l'.propertyColumn style.tabStop = l.propertyColumn style.tabStop := by
      intro hin
      dsimp only [l']
      split
      · rename_i hzero
        rw [hvariable, Bool.and_eq_true, beq_iff_eq, hwidth] at hzero
        rw [propertyColumn_afterGlobal, ← hcolumn hin (Line.isElse_of_isVariable hzero.1), hzero.2]
      · rfl
    refine ⟨⟨?_, ?_, ?_, ?_, fun hin => ?_⟩, fun hin helse => ?_⟩
    · exact hframe.1.trans (h.comment.trans hcomment.symm)
    · exact hframe.2.1.trans (h.mark.trans hmark.symm)
    · exact hinside.trans hkeyframes.symm
    · rw [hlimits]
      exact hlimit ▸ h.limit
    · rw [hkeyframes] at hin
      rw [hl' hin, hlimit, Format.nextProperty, (hbranch hin).1, (hbranch hin).2, hkeyframes, hin]
      refine ⟨(h.columns hin).1, ?_⟩
      cases helse : Line.isElse line with
      | true => exact hlimit.trans (h.columns hin).1
      | false => exact hcolumn hin helse
    · rw [hwidth, hl' hin, hcolumn hin helse]

/-- A line of code is written where it fits. -/
theorem Agrees.advanceCode (hst : Format.Settled style.tabStop st) (h : Agrees style.tabStop l st)
    (hmark : l.afterMark = false) (hcomment : l.inBlockComment = false)
    (hopens : Line.opensBlockComment line = false) (hignore : Line.isIgnoreMark line = false)
    (halike : Format.Alike line (Format.advanceCode config style st line).2) :
    let new := (Format.advanceCode config style st line).2
    l.Fits style.tabStop new ∧
      Agrees style.tabStop (l.next style.tabStop new)
        (Format.advanceCode config style st line).1 := by
  intro new
  have hrole := h.role_eq halike
  have hheader_eq := Format.isHeader_congr halike.traits
    (LineRole.ofLine style.tabStop st line).1
  have hproperty_eq := Format.isPropertyLike_congr halike.traits
    (LineRole.ofLine style.tabStop st line).1
  have hvariable : Line.isVariable new = Line.isVariable line :=
    congrArg Line.Traits.isVariable halike.traits
  have hnext := next_of_code style.tabStop hmark hcomment
    ((congrArg Line.Traits.opensBlockComment halike.traits).trans hopens)
    (halike.ignore.trans hignore)
  by_cases hheader : (LineRole.ofLine style.tabStop st line).1.isHeader line = true
  · have hline : Format.advanceCode config style st line = Format.header config style
        (LineRole.ofLine style.tabStop st line).1 (Format.codeState style st line) line :=
      if_pos hheader
    have hheader' : (l.role style.tabStop new).isHeader new = true := by
      rw [hrole]
      exact hheader_eq.trans hheader
    have hwidth : Indent.width style.tabStop new = Indent.snapColumn style.tabStop
        (Indent.width style.tabStop line) (Format.codeState style st line).headerLimit
        (Line.isResetMark line) := by
      dsimp only [new]
      rw [hline]
      exact Format.width_placed config style _ (Format.visible_of_isHeader hheader)
    refine ⟨h.fits_header hst (Indent.width style.tabStop line) hheader' ?_, ?_⟩
    · rw [hwidth, (Format.codeState_frame style st line).1, halike.reset]
    · rw [hnext, if_pos hheader', hwidth, halike.reset,
        show Line.isKeyframes new = Line.isKeyframes line from
          congrArg Line.Traits.isKeyframes halike.traits, hline]
      exact h.header (LineRole.ofLine style.tabStop st line).1 line
  have hheader' : (l.role style.tabStop new).isHeader new = false := by
    rw [hrole]
    exact hheader_eq.trans (Bool.eq_false_iff.2 hheader)
  rw [hheader', if_neg Bool.false_ne_true] at hnext
  by_cases hproperty : (LineRole.ofLine style.tabStop st line).1.isPropertyLike line = true
  · have hline : Format.advanceCode config style st line = Format.property config style
        (LineRole.ofLine style.tabStop st line).1 (Format.codeState style st line) line :=
      (if_neg hheader).trans (if_pos hproperty)
    have hwidth : Indent.width style.tabStop new = (Format.propertyState style
        (Format.codeState style st line) line).propertyColumn := by
      dsimp only [new]
      rw [hline]
      exact Format.width_placed config style _ ((congrArg Line.Traits.isBlankLine
        (Format.traits_spaced config style.tabStop st line)).trans
          (Format.visible_of_isPropertyLike hproperty))
    obtain ⟨hagrees, hfits⟩ := h.property config hvariable hwidth
    rw [hline, hnext]
    refine ⟨fun _ _ => ?_, hagrees⟩
    rw [hheader', if_neg Bool.false_ne_true]
    intro _ hin helse
    rw [hnext]
    exact hfits (h.keyframes.symm.trans hin)
      ((congrArg Line.Traits.isElse halike.traits).symm.trans helse)
  · have hline : Format.advanceCode config style st line =
        (Format.codeState style st line, Format.trimmed config line) :=
      (if_neg hheader).trans (if_neg hproperty)
    have hproperty' : (l.role style.tabStop new).isPropertyLike new = false := by
      rw [hrole]
      exact hproperty_eq.trans (Bool.eq_false_iff.2 hproperty)
    refine ⟨fits_of_role hheader' hproperty', ?_⟩
    simp only [LineRole.isPropertyLike, Bool.or_eq_true, not_or, Bool.not_eq_true] at hproperty
    have hvariable' : Line.isVariable new = false := by
      have hdeclaration := hproperty.1.1.1.1.1
      simp only [LineRole.ofLine, Bool.or_eq_false_iff] at hdeclaration
      exact hvariable.trans hdeclaration.2
    rw [hnext, hvariable', Bool.false_and, if_neg Bool.false_ne_true, hline]
    obtain ⟨hcomment', hmark'⟩ := Format.codeState_flags style st line
    obtain ⟨hlimit, -, -, hkeyframes, -⟩ := Format.codeState_frame style st line
    refine ⟨h.comment.trans hcomment'.symm, h.mark.trans hmark'.symm,
      h.keyframes.trans hkeyframes.symm, hlimit ▸ h.limit, fun hin => ?_⟩
    rw [hlimit, Format.codeState_of_isPlain hproperty.2 hproperty.1.2]
    exact h.columns (hkeyframes.symm.trans hin)

/-- A line that is only trimmed, or left alone, changes nothing but what protects the next. -/
theorem Agrees.protect (h : Agrees tab l st) {comment comment' mark mark' : Bool}
    (hcomment : comment = comment') (hmark : mark = mark') :
    Agrees tab { l with inBlockComment := comment, afterMark := mark }
      { st with inBlockComment := comment', ignoreNext := mark' } where
  comment := hcomment
  mark := hmark
  keyframes := h.keyframes
  limit := h.limit
  columns := h.columns

/-- Every line is written where it fits. -/
theorem Agrees.advance (hst : Format.Settled style.tabStop st)
    (hline : Format.Plain config style line) (h : Agrees style.tabStop l st) :
    let new := (Format.advance config style st line).2
    l.Fits style.tabStop new ∧
      Agrees style.tabStop (l.next style.tabStop new) (Format.advance config style st line).1 := by
  intro new
  have halike : Format.Alike line new := Format.alike_advance st hline
  obtain ⟨ws, hw, hsplit⟩ := Format.trimmed_spec config line
  by_cases hmark : st.ignoreNext = true
  · have hlmark := h.mark.trans hmark
    have hline' : Format.advance config style st line = ({ st with ignoreNext := false }, line) :=
      if_pos hmark
    refine ⟨fun hnot => absurd hlmark (by simp [hnot]), ?_⟩
    rw [next, if_pos hlmark, hline']
    exact h.protect h.comment rfl
  have hlmark : ¬l.afterMark = true := h.mark ▸ hmark
  by_cases hcomment : st.inBlockComment = true
  · have hlcomment := h.comment.trans hcomment
    have hline' : Format.advance config style st line = ({ st with
        inBlockComment := !Line.closesBlockComment line }, Format.trimmed config line) :=
      (if_neg hmark).trans (if_pos hcomment)
    have hcloses : Line.closesBlockComment new = Line.closesBlockComment line := by
      dsimp only [new]
      rw [hline']
      conv_rhs => rw [hsplit]
      exact (Line.closesBlockComment_white hw _).symm
    refine ⟨fun _ hnot => absurd hlcomment (by simp [hnot]), ?_⟩
    rw [next, if_neg hlmark, if_pos hlcomment, hcloses, hline']
    exact h.protect rfl h.mark
  have hlcomment : ¬l.inBlockComment = true := h.comment ▸ hcomment
  have hopens' : Line.opensBlockComment new = Line.opensBlockComment line :=
    congrArg Line.Traits.opensBlockComment halike.traits
  by_cases hopens : Line.opensBlockComment line = true
  · have hline' : Format.advance config style st line = ({ st with
        inBlockComment := Line.leavesCommentOpen line }, Format.trimmed config line) :=
      (if_neg hmark).trans ((if_neg hcomment).trans (if_pos hopens))
    have hleaves : Line.leavesCommentOpen new = Line.leavesCommentOpen line := by
      dsimp only [new]
      rw [hline']
      conv_rhs => rw [hsplit]
      exact (Line.leavesCommentOpen_white hw _).symm
    refine ⟨fits_of_isComment ?_ ?_, ?_⟩
    · rw [Line.isComment, hopens', hopens, Bool.or_true]
    · refine Bool.eq_false_iff.2 fun hreset => ?_
      have hnot := hopens'.trans hopens
      rw [Line.opensBlockComment_of_isMark hreset] at hnot
      cases hnot
    rw [next, if_neg hlmark, if_neg hlcomment, if_pos (hopens'.trans hopens), hleaves, hline']
    exact h.protect rfl h.mark
  by_cases hignore : Line.isIgnoreMark line = true
  · have hline' : Format.advance config style st line =
        ({ st with ignoreNext := true }, Format.trimmed config line) :=
      (if_neg hmark).trans ((if_neg hcomment).trans ((if_neg hopens).trans (if_pos hignore)))
    have hignore' := halike.ignore.trans hignore
    refine ⟨fits_of_isComment ?_ ?_, ?_⟩
    · rw [Line.isComment, Line.isLineComment_of_isMark hignore', Bool.true_or]
    · exact Bool.eq_false_iff.2 fun hreset =>
        absurd (Line.isMark_unique hignore' hreset) (by decide)
    rw [next, if_neg hlmark, if_neg hlcomment, if_neg (hopens' ▸ hopens), if_pos hignore', hline']
    exact h.protect h.comment rfl
  · have hline' : Format.advance config style st line = Format.advanceCode config style st line :=
      (if_neg hmark).trans ((if_neg hcomment).trans ((if_neg hopens).trans (if_neg hignore)))
    dsimp only [new] at halike ⊢
    rw [hline'] at halike ⊢
    exact h.advanceCode hst (by simpa using hlmark) (by simpa using hlcomment)
      (by simpa using hopens) (by simpa using hignore) halike

/-! ## All lines -/

/-- The lines that the formatter leaves fit. -/
theorem laid_kept (ht : style.tabStop < 2 ^ 50) (hst : Format.Settled style.tabStop st)
    (hlines : ∀ line ∈ lines, Format.Plain config style line) (h : Agrees style.tabStop l st) :
    Laid style.tabStop l (Format.kept config style st lines) := by
  induction lines generalizing st l with
  | nil => exact trivial
  | cons line rest ih =>
    have hline := hlines line (List.mem_cons_self ..)
    have hrest : ∀ l ∈ rest, Format.Plain config style l :=
      fun l hl => hlines l (List.mem_cons_of_mem line hl)
    rw [Format.kept]
    split
    · rename_i hdrops
      rw [Format.advance_of_drops hdrops]
      exact ih hst hrest h
    · obtain ⟨hfits, hnext⟩ := h.advance hst hline
      exact ⟨hfits, ih (hst.advance config ht hline.column) hrest hnext⟩

end Layout

/-- The lines of a formatted text are laid out by the lines before them, where no brace syntax
    is converted and trimming a line does not uncover a mark. -/
theorem laid_formatText (config : FormatConfig) (style : IndentStyle) (text : Text)
    (henabled : config.enabled = true) (htab : style.tabStop < 2 ^ 50)
    (hcount : text.lines.length ≤ positionLimit)
    (hlength : ∀ line ∈ text.lines, line.dropReturn.length < positionLimit)
    (hlines : ∀ line ∈ text.lines, Format.Plain config style line.dropReturn) :
    Laid style.tabStop {} ((formatText config style text).lines.map Text.dropReturn) := by
  rw [lines_formatText htab henabled hcount hlength hlines]
  refine Layout.laid_kept htab (Format.settled_start _) (fun line hline => ?_)
    (Layout.agrees_start _)
  obtain ⟨raw, hraw, rfl⟩ := List.mem_map.1 hline
  exact hlines raw hraw

/-- Rules at odd columns, a variable that closes them, a reset mark and the branches of an `@if`:
    seven lines move. -/
theorem laid_formatText_nested :
    let text : Text :=
      "   .a\n b:c\n     .d\n$e: 1\n f: g\n   // R\n   h: i\n@if $x\n  j: k\n @else".toList
    (formatEdits {} {} text).map Edit.newText =
        [".a", "  b: c", "  .d", "f: g", "  // R", "  h: i", "@else"].map String.toList ∧
      Laid 2 {} ((formatText {} {} text).lines.map Text.dropReturn) :=
  ⟨by decide +kernel, laid_formatText {} {} _ rfl (by decide) (by decide) (by decide) (by decide)⟩

/-- A comment that is followed by white space other than blanks is no mark and stays where it
    is, but it becomes a reset mark when it is trimmed, and stands on no tab stop then. -/
theorem not_laid_of_hidden_mark :
    (∀ line ∈ Text.lines "   // R\u00a0 ".toList, EndsPlainly line.dropReturn ∧
      Indent.width 2 line.dropReturn < 2 ^ 50) ∧
    formatText { convertBraces := false } {} "   // R\u00a0 ".toList = "   // R".toList ∧
    ¬Laid 2 {} ((formatText { convertBraces := false } {} "   // R\u00a0 ".toList).lines.map
      Text.dropReturn) := by
  decide +kernel

end IndentedSass
