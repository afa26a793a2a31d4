/-
  Lines that the formatter and the reader take for the same.

  Whether the formatter expects a line where it is read is told by the lines before it.  It
  follows from what single lines are taken for: where the two agree on each of them, and no line
  is deeper than the blocks before it allow, all lines are expected where they are read.

  * `Format.Agreed`: both take a line for a header, for a declaration, or for something else,
    whatever stands before it; `AllAgreed` says so of the lines outside of block comments;
  * `Format.Attends`: the formatter looks at code, and knows of the open block comment;
  * `Format.Covers`: it expects headers and properties below all open blocks;
  * `allForeseen_of_agreed`: lines that are agreed upon are expected where they are read.
-/
import Mathlib
import IndentedSass.Proofs.Format.Structure
import IndentedSass.Proofs.Reader.Comments

namespace IndentedSass

namespace Reader

variable {find : Nat → Finder} {r r' : Reader} {info : LineInfo} {line : Text}
  {kind : LineKind} {nodes : List Node} {index : Nat}

/-- What declares something closes the blocks that are not above it. -/
theorem Step.blocks_of_declares (huse : r.useAllowed = true → r.scope.blocks = [])
    (h : Step find r info line kind nodes r') (hdeclares : kind.declares = true) :
    r'.scope.blocks = r.scope.blocks.take (r.levelOf info) := by
  rw [h.blocks_eq huse]
  cases kind <;> first | rfl | cases hdeclares

theorem Reads.blocks_of_declares (hs : r.Sound) (h : Reads find r index line r')
    (hdeclares : (r.kindOf line).declares = true) :
    r'.scope.blocks = r.scope.blocks.take (r.levelOf (r.lineInfo index line)) := by
  cases h with
  | waits hblank =>
    rw [hblank] at hdeclares
    cases hdeclares
  | goesOn _ hcontent =>
    rw [hcontent] at hdeclares
    cases hdeclares
  | steps _ _ hstep => exact hstep.blocks_of_declares (r := r.settled _) hs.use hdeclares

end Reader

namespace Format

variable {config : FormatConfig} {style : IndentStyle} {st : FormatState} {e : Expected}
  {find : Nat → Finder} {r r' : Reader} {g : Reading Unit} {line : Text}
  {lines : List Text} {opened : Option Nat} {index n : Nat}

/-! ## What lines are taken for -/

/-- The formatter and the reader take a line for the same, whatever code stands before it. -/
structure Agreed (style : IndentStyle) (line : Text) : Prop where
  /-- The white space at its end means nothing. -/
  ends : Line.isBlankLine line = false → Line.EndsSafely line
  /-- It is no mark, and no header whose block has columns of its own. -/
  plain : Line.isIgnoreMark line = false ∧ Line.isResetMark line = false ∧
    Line.isKeyframes line = false ∧ Line.isElse line = false
  /-- What the formatter leaves alone opens no block. -/
  stays : treatment style {} line = .stays → (Line.kindOutsideComment line).opensBlock = false
  header : treatment style {} line = .header → (Line.kindOutsideComment line).opensBlock = true
  /-- What it formats as a property declares something, in a block or as a variable. -/
  property : treatment style {} line = .property →
    (Line.kindOutsideComment line).declares = true ∧
      (Line.isVariable line = true ∨ 0 < levelAt style line)

theorem agreed_iff : Agreed style line ↔
    (Line.isBlankLine line = false → Line.EndsSafely line) ∧
      (Line.isIgnoreMark line = false ∧ Line.isResetMark line = false ∧
        Line.isKeyframes line = false ∧ Line.isElse line = false) ∧
      (treatment style {} line = .stays → (Line.kindOutsideComment line).opensBlock = false) ∧
      (treatment style {} line = .header → (Line.kindOutsideComment line).opensBlock = true) ∧
      (treatment style {} line = .property → (Line.kindOutsideComment line).declares = true ∧
        (Line.isVariable line = true ∨ 0 < levelAt style line)) :=
  ⟨fun h => ⟨h.ends, h.plain, h.stays, h.header, h.property⟩,
    fun ⟨he, hn, hs, hh, hp⟩ => ⟨he, hn, hs, hh, hp⟩⟩

instance : Decidable (Agreed style line) := decidable_of_iff' _ agreed_iff

/-- The lines outside of block comments are agreed upon, and a block comment ends where it says
    so; `opened` is the column of the one that is open before the lines. -/
def AllAgreed (style : IndentStyle) : Option Nat → List Text → Prop
  | _, [] => True
  | none, line :: rest =>
    Agreed style line ∧ AllAgreed style (Line.commentAfter style.tabStop none line) rest
  | some column, line :: rest =>
    Line.continuesComment style.tabStop column line = true ∧
      AllAgreed style (Line.commentAfter style.tabStop (some column) line) rest

instance decidableAllAgreed (style : IndentStyle) :
    ∀ (opened : Option Nat) (lines : List Text), Decidable (AllAgreed style opened lines)
  | none, [] => inferInstanceAs (Decidable True)
  | some _, [] => inferInstanceAs (Decidable True)
  | none, line :: rest =>
    have := decidableAllAgreed style (Line.commentAfter style.tabStop none line) rest
    inferInstanceAs (Decidable (_ ∧ _))
  | some column, line :: rest =>
    have := decidableAllAgreed style (Line.commentAfter style.tabStop (some column) line) rest
    inferInstanceAs (Decidable (_ ∧ _))

/-! ## What the formatter looks at -/

/-- The formatter looks at code outside of keyframes, or at the block comment that is open. -/
structure Attends (st : FormatState) (opened : Option Nat) : Prop where
  unmarked : st.ignoreNext = false
  outside : st.inKeyframes = false
  comment : st.inBlockComment = opened.isSome

theorem attends_start : Attends {} none := ⟨rfl, rfl, rfl⟩

/-- Outside of comments a line is taken for the same as at the start of a text. -/
theorem Attends.treatment_eq (h : Attends st none) (style : IndentStyle) (line : Text) :
    treatment style st line = treatment style {} line := by
  have hrole : (LineRole.ofLine style.tabStop st line).1 =
      (LineRole.ofLine style.tabStop {} line).1 := by
    simp only [LineRole.ofLine, h.outside]
  simp only [treatment, hrole, h.unmarked, h.comment, Option.isSome_none]

theorem Attends.stays (h : Attends st (some n)) (style : IndentStyle) (line : Text) :
    treatment style st line = .stays := by
  simp [treatment, h.comment]

variable (config) in
/-- The formatter sees the end of a block comment where the reader does. -/
theorem Attends.advance_some (h : Attends st (some index))
    (hgoes : Line.continuesComment style.tabStop index line = true) :
    Attends (Format.advance config style st line).1
      (Line.commentAfter style.tabStop (some index) line) := by
  have hcomment : st.inBlockComment = true := h.comment
  rw [Format.advance, if_neg (by simp [h.unmarked]), if_pos hcomment, Line.commentAfter_some hgoes]
  refine ⟨h.unmarked, h.outside, ?_⟩
  cases Line.closesBlockComment line <;> rfl

variable (config) in
/-- Code leaves the formatter at code, or opens a block comment. -/
theorem Attends.advance_none (h : Attends st none) (hagreed : Agreed style line) :
    Attends (Format.advance config style st line).1
      (Line.commentAfter style.tabStop none line) := by
  obtain ⟨hignore, -, hkeyframes, -⟩ := hagreed.plain
  have hcomment : st.inBlockComment = false := h.comment
  rw [Format.advance, if_neg (by simp [h.unmarked]), if_neg (by simp [hcomment]),
    Line.commentAfter_none]
  by_cases hopens : Line.opensBlockComment line = true
  · rw [if_pos hopens, hopens, Bool.true_and]
    refine ⟨h.unmarked, h.outside, ?_⟩
    cases Line.leavesCommentOpen line <;> rfl
  rw [if_neg hopens, if_neg (by simp [hignore]), if_neg (by simp [hopens])]
  obtain ⟨hsame, hmark⟩ := codeState_flags style st line
  have hinside := (codeState_frame style st line).2.2.2.1
  unfold advanceCode
  dsimp only
  split_ifs with hheader hproperty
  · exact ⟨hmark.trans h.unmarked, hkeyframes, hsame.trans hcomment⟩
  · unfold Format.property propertyState
    split <;> exact ⟨hmark.trans h.unmarked, hinside.trans h.outside, hsame.trans hcomment⟩
  · exact ⟨hmark.trans h.unmarked, hinside.trans h.outside, hsame.trans hcomment⟩

/-! ## What it expects -/

/-- Headers and properties are expected below all open blocks. -/
structure Covers (e : Expected) (r : Reader) : Prop where
  headers : r.scope.blocks.length ≤ e.headers
  properties : r.scope.blocks.length ≤ e.properties

theorem covers_start (uri : Uri) (style : IndentStyle) : Covers {} (.start uri style) :=
  ⟨Nat.le_refl _, Nat.le_refl _⟩

/-- A line at a tab stop that is not too deep is below an open block at most. -/
theorem levelAt_le (hstop : AtStop r.style line)
    (hshallow : ¬(r.target (r.lineInfo index line)).2 = true) (hopen : r.scope.blocks.length ≠ 0) :
    levelAt r.style line ≤ r.scope.blocks.length := by
  by_contra hdeep
  refine hshallow ?_
  have hcolumn : ¬(r.lineInfo index line).column < r.style.tabStop := fun hlt => by
    have hzero : levelAt r.style line = 0 := (hstop.exact index).1 hlt
    omega
  have hraw : r.scope.blocks.length < (r.lineInfo index line).rawLevel := Nat.lt_of_not_le hdeep
  unfold Reader.target
  dsimp only
  rw [if_neg (by simp [hcolumn, hopen]), if_pos hraw]

/-- A header that is agreed upon goes to its level, or as deep as headers may be. -/
theorem Agreed.header_eq (h : Agreed style line) (e : Expected) :
    e.header style line = min (levelAt style line) e.headers := by
  obtain ⟨-, hreset, -, -⟩ := h.plain
  rw [Expected.header, hreset]
  exact if_neg Bool.false_ne_true

/-- A line that is formatted as a property goes to the properties, unless it is a global
    variable. -/
theorem Agreed.property_eq (h : Agreed style line) (hattends : Attends st none) (e : Expected) :
    e.property style st line =
      if Line.isVariable line && Indent.width style.tabStop line == 0 then 0 else e.properties := by
  obtain ⟨-, -, -, helse⟩ := h.plain
  simp [Expected.property, hattends.outside, helse]

/-- The level of a line at the left. -/
theorem levelAt_of_global
    (hglobal : (Line.isVariable line && Indent.width style.tabStop line == 0) = true) :
    levelAt style line = 0 := by
  rw [Bool.and_eq_true, beq_iff_eq] at hglobal
  rw [levelAt, hglobal.2, Indent.level_zero]

/-- A line that is agreed upon, and not too deep, is expected where it is read. -/
theorem Agreed.foreseen (h : Agreed r.style line) (hattends : Attends st none) (hcovers : Covers e r)
    (hopen : r.openComment = none) (hstop : Line.isBlankLine line = false → AtStop r.style line)
    (hshallow : (r.kindOf line).opensBlock = true ∨ (r.kindOf line).declares = true →
      ¬(r.target (r.lineInfo index line)).2 = true) : Foreseen r.style st e r line := by
  have hkind : r.kindOf line = Line.kindOutsideComment line := by rw [Reader.kindOf, hopen]; rfl
  have hplaced : treatment r.style st line ≠ .stays → AtStop r.style line := fun htreatment =>
    hstop (Bool.eq_false_iff.2 fun hblank => htreatment (treatment_of_isBlankLine hblank))
  have hheaders := hcovers.headers
  have hproperties := hcovers.properties
  refine ⟨fun hsome => ?_, fun hblank _ => h.ends ?_, fun htreatment => ?_, fun htreatment => ?_⟩
  · rw [hopen] at hsome
    cases hsome
  · exact Bool.eq_false_iff.2 fun hwhite => hblank (Line.kind_eq_blank_iff.2 hwhite)
  · have hat := hplaced (by rw [htreatment]; decide)
    rw [hattends.treatment_eq] at htreatment
    have hopens : (r.kindOf line).opensBlock = true := hkind ▸ h.header htreatment
    rw [h.header_eq]
    by_cases hnone : r.scope.blocks.length = 0
    · exact .inr (.inr ⟨hnone, by rw [hopens, Bool.or_true]⟩)
    · have hle := levelAt_le hat (hshallow (.inl hopens)) hnone
      exact .inl (Nat.min_eq_left (hle.trans hheaders))
  · have hat := hplaced (by rw [htreatment]; decide)
    rw [hattends.treatment_eq] at htreatment
    obtain ⟨hdeclares, hnested⟩ := h.property htreatment
    rw [← hkind] at hdeclares
    rw [h.property_eq hattends]
    split
    · rename_i hglobal
      exact .inl (levelAt_of_global hglobal).symm
    · rename_i hglobal
      by_cases hnone : r.scope.blocks.length = 0
      · exact .inr (.inr ⟨hnone, by rw [hdeclares, Bool.true_or]⟩)
      have hle := levelAt_le hat (hshallow (.inr hdeclares)) hnone
      refine .inr (.inl ⟨hdeclares, ?_, hle.trans hproperties⟩)
      rcases hnested with hvariable | hnested
      · refine Nat.pos_of_ne_zero fun hzero => hglobal ?_
        rw [hvariable, hat.width_eq, hzero, Nat.zero_mul]
        rfl
      · exact hnested

/-- Headers and properties are still expected below all open blocks after a line. -/
theorem Covers.next (h : Covers e r) (hs : r.Sound) (hagreed : Agreed r.style line)
    (hattends : Attends st none) (hopen : r.openComment = none)
    (hreads : r.Reads find index line r') : Covers (e.next r.style st line) r' := by
  have hkind : r.kindOf line = Line.kindOutsideComment line := by rw [Reader.kindOf, hopen]; rfl
  have hlevel : r.levelOf (r.lineInfo index line) =
    min (levelAt r.style line) r.scope.blocks.length := rfl
  have hheaders := h.headers
  have hproperties := h.properties
  obtain ⟨-, hreset, -, helse⟩ := hagreed.plain
  have htaken := hattends.treatment_eq r.style line
  unfold Expected.next
  cases htreatment : treatment r.style st line with
  | stays =>
    rw [htreatment] at htaken
    have hle := hreads.length_blocks hs
    rw [hkind, hagreed.stays htaken.symm, if_neg Bool.false_ne_true] at hle
    exact ⟨hle.trans hheaders, hle.trans hproperties⟩
  | header =>
    rw [htreatment] at htaken
    have hlength := hreads.length_blocks hs
    rw [hkind, hagreed.header htaken.symm, if_pos rfl, hlevel] at hlength
    have hrole : (LineRole.ofLine r.style.tabStop st line).1.isReset = false := hreset
    have hle : r'.scope.blocks.length ≤ e.header r.style line + 1 := by
      rw [hagreed.header_eq]
      omega
    simp only [hrole, Bool.false_eq_true, if_false]
    exact ⟨hle, hle⟩
  | property =>
    rw [htreatment] at htaken
    have hblocks := hreads.blocks_of_declares hs (hkind ▸ (hagreed.property htaken.symm).1)
    have hbranch : (LineRole.ofLine r.style.tabStop st line).1.isBranch = false := by
      simp [LineRole.ofLine, hattends.outside, helse]
    rw [hlevel] at hblocks
    simp only [hbranch, hattends.outside, Bool.false_eq_true, if_false, Bool.false_and]
    split
    · rename_i hglobal
      rw [levelAt_of_global hglobal, Nat.zero_min, List.take_zero] at hblocks
      exact ⟨hblocks ▸ Nat.zero_le _, hblocks ▸ Nat.zero_le _⟩
    · have hle : r'.scope.blocks.length ≤ r.scope.blocks.length := hblocks ▸ List.length_take_le' ..
      exact ⟨hle.trans hheaders, hle.trans hproperties⟩

/-- A line in a block comment that goes on is expected where it is read. -/
theorem foreseen_of_content (hattends : Attends st (some index))
    (hcontent : r.kindOf line = .blockCommentContent) : Foreseen style st e r line := by
  have hstays := hattends.stays style line
  refine ⟨fun _ => hattends.comment, fun _ hnot => absurd hcontent hnot, fun htreatment => ?_,
    fun htreatment => ?_⟩
  all_goals
    rw [hstays] at htreatment
    cases htreatment

theorem Covers.next_of_content (h : Covers e r) (hs : r.Sound) (hattends : Attends st (some n))
    (hcontent : r.kindOf line = .blockCommentContent) (hreads : r.Reads find index line r') :
    Covers (e.next style st line) r' := by
  have hle := hreads.length_blocks hs
  rw [hcontent] at hle
  rw [Expected.next, hattends.stays style line]
  exact ⟨hle.trans h.headers, hle.trans h.properties⟩

/-! ## Texts -/

variable (config) in
/-- Lines that are agreed upon, none of which is too deep, are expected where they are read. -/
theorem AllAgreed.foreseen (hagreed : AllAgreed style opened (lines.map Text.dropReturn))
    (hs : g.reader.Sound) (hstyle : g.reader.style = style)
    (hopened : g.reader.openComment.map (·.column) = opened) (hattends : Attends st opened)
    (hcovers : Covers e g.reader)
    (hstop : ∀ line ∈ lines, Line.isBlankLine line.dropReturn = false → AtStop style line.dropReturn)
    (hshallow : ¬(Reading.readLines .detached g index lines).reader.NotesDepth) :
    AllForeseen config style st e g index lines := by
  induction lines generalizing opened st e g index with
  | nil => trivial
  | cons line rest ih =>
    obtain rfl := hstyle
    have hreads := Reading.readLine_reads .detached hs index line.dropReturn
    have hs' := hreads.sound hs
    have hcomment := hreads.comment_eq
    rw [hopened] at hcomment
    have hstyle' := hreads.frame.2.1
    have hstops : ∀ l ∈ rest, Line.isBlankLine l.dropReturn = false →
        AtStop g.reader.style l.dropReturn :=
      fun l hl => hstop l (List.mem_cons_of_mem _ hl)
    cases opened with
    | some column =>
      obtain ⟨hgoes, hagreed⟩ := hagreed
      have hcontent : g.reader.kindOf line.dropReturn = .blockCommentContent := by
        rw [Reader.kindOf, hopened, Line.kind, if_pos hgoes]
      exact ⟨foreseen_of_content hattends hcontent,
        ih hagreed hs' hstyle' hcomment (hattends.advance_some config hgoes)
          (hcovers.next_of_content hs hattends hcontent hreads) hstops hshallow⟩
    | none =>
      obtain ⟨hline, hagreed⟩ := hagreed
      have hopen : g.reader.openComment = none := Option.map_eq_none_iff.1 hopened
      have hgrows := Reading.grows_readLines .detached hs' (index + 1) rest
      have hlevel : (g.reader.kindOf line.dropReturn).opensBlock = true ∨
          (g.reader.kindOf line.dropReturn).declares = true →
          ¬(g.reader.target (g.reader.lineInfo index line.dropReturn)).2 = true := by
        intro hkind hdeep
        refine hshallow ((Reading.notesDepth_readLine .detached hs index ?_ ?_ ?_ hdeep).mono
          hgrows.diagnostics)
        all_goals
          intro hother
          rw [hother] at hkind
          simp [LineKind.opensBlock, LineKind.declares] at hkind
      exact ⟨hline.foreseen hattends hcovers hopen (hstop line (List.mem_cons_self ..)) hlevel,
        ih hagreed hs' hstyle' hcomment (hattends.advance_none config hline)
          (hcovers.next hs hline hattends hopen hreads) hstops hshallow⟩

variable (config) in
/-- **Lines that are taken for the same are expected where they are read.**  In a text whose
    lines stand at tab stops, none deeper than the blocks before it allow, the formatter expects
    each line at the level at which it is read, if on each line outside of block comments it
    agrees with the reader. -/
theorem allForeseen_of_agreed (uri : Uri) {text : Text}
    (hstop : ∀ line ∈ text.lines, Line.isBlankLine line.dropReturn = false →
      AtStop style line.dropReturn)
    (hshallow : ∀ d ∈ (readDetached uri style text).diagnostics,
      d.problem.code ≠ "invalidIndentation")
    (hagreed : AllAgreed style none (text.lines.map Text.dropReturn)) :
    AllForeseen config style {} {} ⟨.start uri style, (), []⟩ 0 text.lines := by
  refine hagreed.foreseen config (Reader.sound_start uri style) rfl rfl attends_start
    (covers_start uri style) hstop ?_
  rintro ⟨d, hd, hcode⟩
  exact hshallow d ((Reader.grows_flushBlanks _).diagnostics.subset hd) hcode

example : AllAgreed {} none (["$x: 1px", "=m($a)", "  color:red", "", ".a", "  b: $x ", "  &:hover",
    "    +m(1)", "/* f", "  g */", "@if $x", "  h: i"].map String.toList) := by
  decide +kernel

end Format

end IndentedSass
