/-
  What formatting keeps of the structure of a text.

  The formatter and the reader decide separately which lines open a block.  Where the
  formatter expects the lines of a text at the levels at which the reader finds them, the
  formatted text has the same outline.

  * `Format.Foreseen`: the formatter expects a line where it is read; `AllForeseen` says so
    of all lines of a text;
  * `Format.Together`: what ties the formatter to the readings of the two texts; a line
    keeps it (`Together.write`, `Together.drop`);
  * `outline_formatText`: the two texts have the same outline;
  * `outline_formatText_of_combinator`: they may not have it where the formatter does not
    take a selector for a header.
-/
import Mathlib
import IndentedSass.Proofs.Format.Expected
import IndentedSass.Proofs.Format.Leaves
import IndentedSass.Proofs.Reader.Innermost
import IndentedSass.Proofs.Reader.Reports
import IndentedSass.Proofs.Reader.Twins

namespace IndentedSass

namespace Format

variable {config : FormatConfig} {style : IndentStyle} {st : FormatState} {e : Expected}
  {r r' : Reader} {g g' : Reading Unit} {line left : Text} {lines lefts : List Text}
  {index index' : Nat}

/-! ## The condition -/

/-- For the reader a line may as well stand at a level: it stands there, or it declares
    something in a block and is not less deep there, or no block is open and it belongs to the
    top level anyway. -/
def Suits (style : IndentStyle) (r : Reader) (line : Text) (level : Nat) : Prop :=
  level = levelAt style line ∨
    ((r.kindOf line).declares = true ∧ 0 < levelAt style line ∧ levelAt style line ≤ level) ∨
    (r.scope.blocks.length = 0 ∧ ((r.kindOf line).declares || (r.kindOf line).opensBlock) = true)

instance (style : IndentStyle) (r : Reader) (line : Text) (level : Nat) :
    Decidable (Suits style r line level) :=
  inferInstanceAs (Decidable (_ ∨ _ ∨ _))

/-- The formatter expects a line at the level at which it is read. -/
structure Foreseen (style : IndentStyle) (st : FormatState) (e : Expected) (r : Reader)
    (line : Text) : Prop where
  /-- It knows of the open block comment. -/
  comment : r.openComment.isSome = true → st.inBlockComment = true
  /-- The white space at the end of the line means nothing. -/
  ends : r.kindOf line ≠ .blank → r.kindOf line ≠ .blockCommentContent → Line.EndsSafely line
  /-- A header is at most one level below the last one that the formatter recognised, -/
  header : treatment style st line = .header → Suits style r line (e.header style line)
  /-- and a line that is formatted as a property stands where properties are expected. -/
  property : treatment style st line = .property → Suits style r line (e.property style st line)

theorem foreseen_iff : Foreseen style st e r line ↔
    (r.openComment.isSome = true → st.inBlockComment = true) ∧
      (r.kindOf line ≠ .blank → r.kindOf line ≠ .blockCommentContent → Line.EndsSafely line) ∧
      (treatment style st line = .header → Suits style r line (e.header style line)) ∧
      (treatment style st line = .property → Suits style r line (e.property style st line)) :=
  ⟨fun h => ⟨h.comment, h.ends, h.header, h.property⟩, fun ⟨hc, he, hh, hp⟩ => ⟨hc, he, hh, hp⟩⟩

instance : Decidable (Foreseen style st e r line) := decidable_of_iff' _ foreseen_iff

/-- The formatter expects all lines where they are read. -/
def AllForeseen (config : FormatConfig) (style : IndentStyle) :
    FormatState → Expected → Reading Unit → Nat → List Text → Prop
  | _, _, _, _, [] => True
  | st, e, g, index, line :: rest =>
    Foreseen style st e g.reader line.dropReturn ∧
      AllForeseen config style (advance config style st line.dropReturn).1
        (e.next style st line.dropReturn) (g.readLine .detached index line.dropReturn) (index + 1) rest

instance decidableAllForeseen (config : FormatConfig) (style : IndentStyle) :
    ∀ (st : FormatState) (e : Expected) (g : Reading Unit) (index : Nat) (lines : List Text),
      Decidable (AllForeseen config style st e g index lines)
  | _, _, _, _, [] => inferInstanceAs (Decidable True)
  | st, e, g, index, line :: rest =>
    have := decidableAllForeseen config style (advance config style st line.dropReturn).1
      (e.next style st line.dropReturn) (g.readLine .detached index line.dropReturn) (index + 1) rest
    inferInstanceAs (Decidable (_ ∧ _))

/-- A file is read without lines that are nothing known, and in every block the declarations
    come before the nested blocks. -/
structure Orderly (r : Reader) : Prop where
  known : ∀ d ∈ r.diagnostics, d.problem.code ≠ "unclassifiedLine"
  tidy : Tree.Tidy r.nodes

/-- What was read before was orderly as well. -/
theorem Orderly.of_grows (h : Reader.Grows r r') (horderly : Orderly r') : Orderly r where
  known d hd := horderly.known d (h.diagnostics.subset hd)
  tidy := horderly.tidy.of_extends h.nodes

/-! ## The two readings -/

/-- The formatter in step with the readings of the text and the formatted text. -/
structure Together (style : IndentStyle) (st : FormatState) (e : Expected) (r r' : Reader) :
    Prop where
  settled : Settled style.tabStop st
  columns : Matches style.tabStop st e
  twins : Reader.Twins r r'
  style_eq : r.style = style
  chained : Reader.Chained r.scope.blocks

theorem together_start (uri : Uri) (style : IndentStyle) :
    Together style {} {} (.start uri style) (.start uri style) where
  settled := settled_start style.tabStop
  columns := matches_start style.tabStop
  twins := ⟨Reader.sound_start uri style, Reader.sound_start uri style, rfl⟩
  style_eq := rfl
  chained := Reader.chained_nil

/-- A line at a tab stop is at the left when it is at level zero. -/
theorem exact_of_width {info : LineInfo} {tab : Nat} (hpos : 0 < tab)
    (h : info.column = info.rawLevel * tab) : info.column < tab ↔ info.rawLevel = 0 := by
  rw [h]
  constructor
  · intro hlt
    by_contra hne
    exact absurd hlt (Nat.not_lt.2 (Nat.le_mul_of_pos_left _ (Nat.pos_of_ne_zero hne)))
  · intro hzero
    rwa [hzero, Nat.zero_mul]

theorem AtStop.exact (h : AtStop r.style line) (index : Nat) :
    (r.lineInfo index line).column < r.style.tabStop ↔ (r.lineInfo index line).rawLevel = 0 :=
  exact_of_width r.style.tabStop_pos h.width_eq

/-- The blocks stay chained. -/
theorem chained_readLine (hs : g.reader.Sound) (hc : Reader.Chained g.reader.scope.blocks)
    (hstop : Line.isBlankLine line = false → AtStop g.reader.style line) (index : Nat) :
    Reader.Chained (g.readLine .detached index line).reader.scope.blocks := by
  refine (Reading.readLine_reads .detached hs index line).chained hs hc fun hblank _ => ?_
  have hvisible : Line.isBlankLine line = false :=
    Bool.eq_false_iff.2 fun h => hblank (Line.kind_eq_blank_iff.2 h)
  exact Reader.under_levelOf g.reader ((hstop hvisible).exact index)

variable (config) in
/-- What holds after a line, when the readings are in step. -/
theorem Together.after (h : Together style st e g.reader g'.reader) (ht : style.tabStop < 2 ^ 50)
    (hstop : Line.isBlankLine line = false → AtStop style line)
    (htwins : Reader.Twins (g.readLine .detached index line).reader r') :
    Together style (advance config style st line).1 (e.next style st line)
      (g.readLine .detached index line).reader r' where
  settled := h.settled.advance_of_visible config ht fun hvisible => (hstop hvisible).width_lt
  columns := h.columns.next config ht hstop
  twins := htwins
  style_eq := ((Reading.readLine_reads .detached h.twins.left index line).frame.2.1).trans h.style_eq
  chained := chained_readLine h.twins.left h.chained (h.style_eq ▸ hstop) index

variable (config) in
/-- A blank line that is dropped makes no difference. -/
theorem Together.drop (h : Together style st e g.reader g'.reader) (ht : style.tabStop < 2 ^ 50)
    (hcomment : st.inBlockComment = false) (hblank : Line.isBlankLine line = true)
    (hforeseen : Foreseen style st e g.reader line) (index : Nat) :
    Together style (advance config style st line).1 (e.next style st line)
      (g.readLine .detached index line).reader g'.reader := by
  refine h.after config ht (by simp [hblank]) ?_
  refine Reading.twins_drop h.twins index (Line.kind_eq_blank_iff.2 hblank) ?_
  refine Option.not_isSome_iff_eq_none.1 fun hopen => ?_
  rw [hforeseen.comment hopen] at hcomment
  cases hcomment

/-! ## Lines that stay -/

/-- A line that stays keeps what stands before the white space at its end. -/
theorem Rests.of_stays (h : treatment style st line = .stays)
    (hrests : Rests line (advance config style st line).2 left) :
    ∃ ws, White ws ∧ left = line.trimEnd ++ ws := by
  obtain ⟨written, htrims, hleft⟩ := hrests
  have hwritten : ∃ ws, White ws ∧ written = line.trimEnd ++ ws := by
    rcases htrims.of_stays h with rfl | rfl
    · exact ⟨[], List.forall_mem_nil _, (List.append_nil _).symm⟩
    · exact ⟨_, written.white_endWhite, written.trimEnd_append_endWhite.symm⟩
  obtain ⟨ws, hw, rfl⟩ := hwritten
  rcases hleft with rfl | rfl
  · exact ⟨ws, hw, rfl⟩
  · exact ⟨ws ++ line.ending, List.forall_mem_append.2 ⟨hw, line.white_ending⟩,
      List.append_assoc ..⟩

/-- The white space at the end of a line does not tell what it is in a comment. -/
theorem continuesComment_end {ws : Text} (hw : White ws) (hleft : left = line.trimEnd ++ ws)
    (hvisible : Line.isBlankLine line = false) (tab column : Nat) :
    Line.continuesComment tab column left = Line.continuesComment tab column line := by
  have hwidth : Indent.width tab left = Indent.width tab line := by
    rw [hleft, width_trimEnd_append hvisible]
  have htrim : Text.trim left = line.trim := by
    conv_rhs => rw [← line.trimEnd_append_endWhite]
    rw [hleft, Text.trim_white hw, Text.trim_white line.white_endWhite]
  rw [Line.continuesComment, Line.continuesComment, hwidth, htrim]

/-- In a block comment the formatter leaves lines where they are. -/
theorem Foreseen.stays (hforeseen : Foreseen style st e r line)
    (hopen : r.openComment.isSome = true) : treatment style st line = .stays := by
  rw [treatment, hforeseen.comment hopen]
  simp

/-- A line that goes on with a block comment is written as such a line. -/
theorem twins_write_content (h : Together style st e g.reader g'.reader)
    (hforeseen : Foreseen style st e g.reader line)
    (hcontent : g.reader.kindOf line = .blockCommentContent)
    (hleft : Rests line (advance config style st line).2 left) (index index' : Nat) :
    Reader.Twins (g.readLine .detached index line).reader
      (g'.readLine .detached index' left).reader := by
  obtain ⟨column, hcolumn⟩ := Line.opened_of_content hcontent
  have hopen : g.reader.openComment.isSome = true := by
    rw [← Option.isSome_map, hcolumn]
    rfl
  obtain ⟨ws, hw, hends⟩ := hleft.of_stays (hforeseen.stays hopen)
  have hvisible : Line.isBlankLine line = false := by
    refine Bool.eq_false_iff.2 fun hblank => ?_
    rw [show g.reader.kindOf line = .blank from Line.kind_eq_blank_iff.2 hblank] at hcontent
    cases hcontent
  have hcontent' : g'.reader.kindOf left = .blockCommentContent := by
    have hgoes : Line.continuesComment g.reader.style.tabStop column line = true := by
      by_contra hnot
      rw [Reader.kindOf, hcolumn, Line.kind, if_neg hnot] at hcontent
      exact Line.kindOutsideComment_ne_content line hcontent
    rw [h.twins.kindOf, Reader.kindOf, hcolumn, Line.kind, continuesComment_end hw hends
      hvisible, if_pos hgoes]
  refine Reading.twins_content h.twins index index' hcontent hcontent' (fun tab columns => ?_) ?_
  · conv_rhs => rw [← line.trimEnd_append_endWhite]
    rw [hends, trimEnd_dropColumns_white tab columns hw,
      trimEnd_dropColumns_white tab columns line.white_endWhite]
  · conv_rhs => rw [← line.trimEnd_append_endWhite]
    rw [hends, Line.closesBlockComment_white hw, Line.closesBlockComment_white line.white_endWhite]

/-! ## Lines that are placed -/

theorem kindOf_ne_blank (hvisible : Line.isBlankLine line = false) : r.kindOf line ≠ .blank := by
  intro hblank
  rw [Line.kind_eq_blank_iff.1 hblank] at hvisible
  cases hvisible

/-- A line that is known is of the same kind where it is written. -/
theorem kindOf_write (h : Together style st e g.reader g'.reader)
    (hforeseen : Foreseen style st e g.reader line) (hvisible : Line.isBlankLine line = false)
    (hcontent : g.reader.kindOf line ≠ .blockCommentContent)
    (hleft : Trims line (advance config style st line).2 left)
    (hkind : Line.kindOutsideComment left = Line.kindOutsideComment line) :
    g'.reader.kindOf left = g.reader.kindOf line := by
  rw [h.twins.kindOf]
  cases hopen : g.reader.openComment with
  | none => rw [Reader.kindOf, Reader.kindOf, hopen, Option.map_none, Line.kind_none, Line.kind_none, hkind]
  | some comment =>
    have hrests : Rests line (advance config style st line).2 left := ⟨left, hleft, .inl rfl⟩
    obtain ⟨ws, hw, hends⟩ := hrests.of_stays (hforeseen.stays (by rw [hopen]; rfl))
    rw [Reader.kindOf, hopen, Option.map_some] at hcontent ⊢
    rw [Reader.kindOf, hopen, Option.map_some]
    have hcloses : ¬Line.continuesComment g.reader.style.tabStop comment.column line = true := by
      intro hgoes
      rw [Line.kind, if_pos hgoes] at hcontent
      exact hcontent rfl
    rw [Line.kind, Line.kind, continuesComment_end hw hends hvisible, if_neg hcloses,
      if_neg hcloses, hkind]

/-- A line is written at a level that suits it. -/
theorem level_write (h : Together style st e g.reader g'.reader) (ht : style.tabStop < 2 ^ 50)
    (hstop : AtStop style line) (hforeseen : Foreseen style st e g.reader line)
    (hvisible : Line.isBlankLine line = false)
    (hleft : Trims line (advance config style st line).2 left) :
    ∃ level, Indent.width style.tabStop left = level * style.tabStop ∧
      level * style.tabStop ≤ 2 ^ 50 + 4 * style.tabStop ∧ Suits style g.reader line level := by
  have hlt := hstop.width_lt
  have hwidth := hstop.width_eq
  have hshown : Line.isBlankLine (advance config style st line).2 = false :=
    (congrArg Line.Traits.isBlankLine (traits_advance config style st hvisible)).trans hvisible
  have hleft' := hleft.width hshown style.tabStop
  cases htreatment : treatment style st line with
  | stays =>
    refine ⟨levelAt style line, ?_, by omega, .inl rfl⟩
    rw [← hwidth]
    rcases hleft.of_stays htreatment with hend | rfl
    · have htrims : Trims line line left := .inl hend
      exact htrims.width hvisible style.tabStop
    · rfl
  | header =>
    have hle : e.header style line * style.tabStop ≤ levelAt style line * style.tabStop := by
      refine Nat.mul_le_mul_right _ ?_
      unfold Expected.header
      split
      · exact Nat.le_refl _
      · exact Nat.min_le_left ..
    exact ⟨_, hleft'.trans (column_of_header config h.columns ht hstop htreatment), by omega,
      hforeseen.header htreatment⟩
  | property =>
    have hle := h.settled.propertyState_le line
    rw [h.columns.propertyState_column line] at hle
    exact ⟨_, hleft'.trans (column_of_property config h.columns htreatment), hle,
      hforeseen.property htreatment⟩

/-- A declaration is cut at its colon. -/
theorem splitDeclaration?_ne_none (h : Line.kindOutsideComment line = .property ∨
    Line.kindOutsideComment line = .variableDecl) : Line.splitDeclaration? line ≠ none := by
  obtain ⟨pre, value, rfl, hpre⟩ := Line.exists_colon (isDeclaration_of_kind h)
  rw [Line.splitDeclaration?_plain hpre]
  exact Option.some_ne_none _

/-- A declaration in a block of an orderly text belongs to the last block that is open. -/
theorem innermost_of_orderly (hs : g.reader.Sound) (hc : Reader.Chained g.reader.scope.blocks)
    (hstop : AtStop g.reader.style line) (hdeclares : (g.reader.kindOf line).declares = true)
    (horderly : Orderly (g.readLine .detached index line).reader)
    (hnested : 0 < levelAt g.reader.style line) :
    g.reader.scope.blocks.length ≤ levelAt g.reader.style line := by
  have hsteps := Reading.readLine_reads .detached hs index line
  generalize (g.readLine .detached index line).reader = after at hsteps horderly
  cases hsteps with
  | waits hblank =>
    rw [hblank] at hdeclares
    cases hdeclares
  | goesOn _ hcontent =>
    rw [hcontent] at hdeclares
    cases hdeclares
  | steps _ hcontent hstep =>
    have hkind : g.reader.kindOf line = Line.kindOutsideComment line :=
      Line.kind_eq_outside hcontent
    have hcolon : g.reader.kindOf line = .property ∨ g.reader.kindOf line = .variableDecl →
        Line.splitDeclaration? line ≠ none := fun h => splitDeclaration?_ne_none (hkind ▸ h)
    have hlevel : g.reader.levelOf (g.reader.lineInfo index line) =
      min (levelAt g.reader.style line) g.reader.scope.blocks.length := rfl
    by_contra hopen
    have hlast := Reader.Step.innermost hs hc (g.reader.under_levelOf (hstop.exact index)) hstep
      hdeclares hcolon horderly.tidy (by omega)
    omega

/-- A line is written where the reader finds the same place for it. -/
theorem samePlace_write (h : Together style st e g.reader g'.reader) (ht : style.tabStop < 2 ^ 50)
    (hstop : AtStop style line) (hforeseen : Foreseen style st e g.reader line)
    (hvisible : Line.isBlankLine line = false)
    (horderly : Orderly (g.readLine .detached index line).reader)
    (hleft : Trims line (advance config style st line).2 left) (index' : Nat) :
    g.reader.SamePlace (g.reader.lineInfo index line) (g'.reader.lineInfo index' left) ∧
      ((g.reader.kindOf line).opensBlock = false → (g.reader.kindOf line).declares = false →
        (g'.reader.lineInfo index' left).column = (g.reader.lineInfo index line).column) := by
  have hinfo : g'.reader.lineInfo index' left = g.reader.lineInfo index' left := by
    rw [Reader.lineInfo, Reader.lineInfo, h.twins.style]
  rw [hinfo]
  obtain rfl := h.style_eq
  have hpos := g.reader.style.tabStop_pos
  obtain ⟨level, hcolumn, hle, hsuits⟩ := level_write h ht hstop hforeseen hvisible hleft
  have hraw : (g.reader.lineInfo index' left).rawLevel = level := by
    show Indent.level _ (Indent.width _ left) = _
    rw [hcolumn, Indent.level_of_dvd hpos (Nat.dvd_mul_left ..) hle, Nat.mul_div_cancel _ hpos]
  have hbelow : g.reader.scope.blocks.length ≤ levelAt g.reader.style line →
      g.reader.scope.blocks.length ≤ level →
      g.reader.SamePlace (g.reader.lineInfo index line) (g.reader.lineInfo index' left) :=
    fun hinner hinner' => Reader.samePlace_below hinner (hraw ▸ hinner') (hstop.exact index)
      (exact_of_width hpos (hraw ▸ hcolumn))
  rcases hsuits with rfl | ⟨hdeclares, hnested, hdeeper⟩ | ⟨hnone, hkind⟩
  · have hsame : (g.reader.lineInfo index' left).column = (g.reader.lineInfo index line).column :=
      hcolumn.trans hstop.width_eq.symm
    exact ⟨g.reader.samePlace_of_column hsame (congrArg (Indent.level _) hsame), fun _ _ => hsame⟩
  · have hinner := innermost_of_orderly h.twins.left h.chained hstop hdeclares horderly hnested
    exact ⟨hbelow hinner (hinner.trans hdeeper), fun _ h => absurd (hdeclares.symm.trans h) (by simp)⟩
  · refine ⟨hbelow (by omega) (by omega), fun hopens hdeclares => ?_⟩
    rw [hopens, hdeclares] at hkind
    cases hkind

/-- A visible line is written as a line that is read alike, at the same place. -/
theorem twins_write_visible (h : Together style st e g.reader g'.reader) (ht : style.tabStop < 2 ^ 50)
    (hstop : AtStop style line) (hforeseen : Foreseen style st e g.reader line)
    (hvisible : Line.isBlankLine line = false)
    (hcontent : g.reader.kindOf line ≠ .blockCommentContent)
    (horderly : Orderly (g.readLine .detached index line).reader)
    (hleft : Trims line (advance config style st line).2 left) (index' : Nat) :
    Reader.Twins (g.readLine .detached index line).reader
      (g'.readLine .detached index' left).reader := by
  have hblank : g.reader.kindOf line ≠ .blank := kindOf_ne_blank hvisible
  have hknown : Line.kindOutsideComment line ≠ .literal := by
    intro hliteral
    rw [← Line.kind_eq_outside hcontent] at hliteral
    obtain ⟨d, hd, hcode⟩ := Reading.unclassified_readLine .detached h.twins.left index hliteral
    exact horderly.known d hd hcode
  have halike := hleft.readsAlike (hforeseen.ends hblank hcontent) hvisible hknown
  obtain ⟨hplace, hcolumn⟩ := samePlace_write h ht hstop hforeseen hvisible horderly hleft index'
  exact Reading.twins_visible h.twins index index' hblank hcontent
    (kindOf_write h hforeseen hvisible hcontent hleft halike.kind) halike hplace
    hcolumn

/-- A line that is written keeps the two readings in step. -/
theorem Together.write (h : Together style st e g.reader g'.reader) (ht : style.tabStop < 2 ^ 50)
    (hstop : Line.isBlankLine line = false → AtStop style line)
    (hforeseen : Foreseen style st e g.reader line)
    (horderly : Orderly (g.readLine .detached index line).reader)
    (hleft : Rests line (advance config style st line).2 left) (index' : Nat) :
    Together style (advance config style st line).1 (e.next style st line)
      (g.readLine .detached index line).reader (g'.readLine .detached index' left).reader := by
  refine h.after config ht hstop ?_
  cases hvisible : Line.isBlankLine line with
  | true =>
    obtain ⟨ws, hw, rfl⟩ := hleft.of_stays (treatment_of_isBlankLine hvisible)
    have hblank : Line.isBlankLine (line.trimEnd ++ ws) = true := by
      rw [← hvisible]
      conv_rhs => rw [← line.trimEnd_append_endWhite]
      rw [Line.isBlankLine_white hw, Line.isBlankLine_white line.white_endWhite]
    exact Reading.twins_blank h.twins index index' (Line.kind_eq_blank_iff.2 hvisible)
      (Line.kind_eq_blank_iff.2 hblank)
  | false =>
    by_cases hcontent : g.reader.kindOf line = .blockCommentContent
    · exact twins_write_content h hforeseen hcontent hleft index index'
    · have hends := hforeseen.ends (kindOf_ne_blank hvisible) hcontent
      exact twins_write_visible h ht (hstop hvisible) hforeseen hvisible hcontent horderly
        (hleft.trims hends.carriage) index'

/-! ## Texts -/

/-- The two readings are in step to the end. -/
theorem Together.leaves (h : Together style st e g.reader g'.reader) (ht : style.tabStop < 2 ^ 50)
    (hleaves : Leaves config style st lines lefts)
    (hstop : ∀ line ∈ lines, Line.isBlankLine line.dropReturn = false → AtStop style line.dropReturn)
    (hforeseen : AllForeseen config style st e g index lines)
    (horderly : Orderly (Reading.readLines .detached g index lines).reader) (index' : Nat) :
    Reader.Twins (Reading.readLines .detached g index lines).reader
      (Reading.readLines .detached g' index' lefts).reader := by
  induction hleaves generalizing e g g' index index' with
  | nil => exact h.twins
  | @drop st line rest lefts hcomment hblank _ ih =>
    have hnext := h.drop config ht hcomment hblank hforeseen.1 index
    exact ih hnext (fun l hl => hstop l (List.mem_cons_of_mem _ hl)) hforeseen.2 horderly index'
  | @write st line left rest lefts hleft _ ih =>
    have hgrows := Reading.grows_readLines .detached
      ((Reading.readLine_reads .detached h.twins.left index line.dropReturn).sound h.twins.left)
      (index + 1) rest
    have hnext := h.write ht (hstop line (List.mem_cons_self ..)) hforeseen.1
      (horderly.of_grows hgrows) hleft index'
    exact ih hnext (fun l hl => hstop l (List.mem_cons_of_mem _ hl)) hforeseen.2 horderly (index' + 1)

end Format

/-- **Formatting keeps the structure of a text.** Its lines stand at tab stops, are something
    known, and declare before they nest.  Without conversion the formatted text has the same
    nodes at the same levels with the same parents, blank lines left out, if the formatter
    expects each line at the level at which it is read. -/
theorem outline_formatText {config : FormatConfig} {style : IndentStyle} {text : Text}
    (hconvert : config.convertBraces = false) (htab : style.tabStop < 2 ^ 50) (uri : Uri)
    (hcount : text.lines.length ≤ positionLimit)
    (hlength : ∀ line ∈ text.lines, line.dropReturn.length < positionLimit)
    (hstop : ∀ line ∈ text.lines, Line.isBlankLine line.dropReturn = false →
      Format.AtStop style line.dropReturn)
    (hknown : ∀ d ∈ (readDetached uri style text).diagnostics,
      d.problem.code ≠ "unclassifiedLine")
    (htidy : Tree.isTidy (readDetached uri style text).body = true)
    (hforeseen : Format.AllForeseen config style {} {} ⟨.start uri style, (), []⟩ 0 text.lines) :
    Tree.outline (readDetached uri style (formatText config style text)).body =
      Tree.outline (readDetached uri style text).body := by
  cases henabled : config.enabled with
  | false =>
    rw [Format.formatText_of_disabled henabled]
  | true =>
    have hleaves := Format.leaves_formatText henabled hconvert htab text hcount hlength
      fun line hline hvisible => (hstop line hline hvisible).width_lt
    have horderly : Format.Orderly (readFile .detached () uri style text).reader :=
      ⟨hknown, Tree.tidy_of_isTidy htidy⟩
    have hstart : Format.Together style {} {} (⟨.start uri style, (), []⟩ : Reading Unit).reader
      (⟨.start uri style, (), []⟩ : Reading Unit).reader := Format.together_start uri style
    have htwins := hstart.leaves htab hleaves hstop hforeseen
      (horderly.of_grows (Reader.grows_flushBlanks _)) 0
    exact (Reading.outline_finish htwins).symm

/-- Declarations get their spaces, tabs become spaces, and a blank line goes; a branch and a
    keyframe point stand where they are expected. -/
theorem outline_formatText_sheet :
    let uri : Uri := ⟨"file".toList, none, "/a.sass".toList, none, none⟩
    let config : FormatConfig := { convertBraces := false, normalizeIndent := true }
    let text : Text := Text.unlines (["$x: 1px", "=m($a)", "  color:red", "", ".a", "\tb:$x ",
      "\t&:hover", "\t\t+m(1)", "/* f", "  g */\r\r", "@if $x", "  h: i", "@else", "  j: k",
      "@keyframes l", "  from", "    o: p"].map String.toList)
    formatEdits config {} text ≠ [] ∧
      Tree.outline (readDetached uri {} (formatText config {} text)).body =
        Tree.outline (readDetached uri {} text).body := by
  intro uri config text
  have hquiet : (readDetached uri {} text).diagnostics = [] := by decide +kernel
  have hsame : Tree.outline (readDetached uri {} (formatText config {} text)).body =
      Tree.outline (readDetached uri {} text).body :=
    outline_formatText rfl (by decide) uri (by decide +kernel) (by decide +kernel)
      (by decide +kernel) (by rw [hquiet]; exact fun d hd => nomatch hd)
      (by decide +kernel) (by decide +kernel)
  exact ⟨by decide +kernel, hsame⟩

/-- The formatter does not take `> b` for a header, and moves the declaration in it to the rule
    around it.  It moves an include behind a rule into the rule, a branch behind nested rules
    into the branch before it, and a declaration out of its block when the header is one that
    is left alone. -/
theorem outline_formatText_of_combinator :
    let uri : Uri := ⟨"file".toList, none, "/a.sass".toList, none, none⟩
    let config : FormatConfig := { convertBraces := false }
    let texts := ["a\n  > b\n    c: d", "a\n  b: c\n@include d", "@if $a\n  b\n    c: d\n@else",
      "// I\na\n  b: c"]
    formatText config {} "a\n  > b\n    c: d".toList = "a\n  > b\n  c: d".toList ∧
    ∀ text ∈ texts,
      (∀ line ∈ Text.lines text.toList, Format.AtStop {} line.dropReturn) ∧
      (readDetached uri {} text.toList).diagnostics = [] ∧
      Tree.isTidy (readDetached uri {} text.toList).body = true ∧
      Tree.outline (readDetached uri {} (formatText config {} text.toList)).body ≠
        Tree.outline (readDetached uri {} text.toList).body := by
  intro uri config texts
  have hlevels : ∀ text ∈ texts,
      (Tree.listing (Tree.outline (readDetached uri {} (formatText config {} text.toList)).body)).map
          Node.level? ≠
        (Tree.listing (Tree.outline (readDetached uri {} text.toList).body)).map Node.level? := by
    decide +kernel
  have hasked : ∀ text ∈ texts, (∀ line ∈ Text.lines text.toList, Format.AtStop {} line.dropReturn) ∧
      (readDetached uri {} text.toList).diagnostics = [] ∧
      Tree.isTidy (readDetached uri {} text.toList).body = true := by
    decide +kernel
  refine ⟨by decide +kernel, fun text htext => ?_⟩
  obtain ⟨hstop, hquiet, htidy⟩ := hasked text htext
  exact ⟨hstop, hquiet, htidy, fun hsame => hlevels text htext (by rw [hsame])⟩

end IndentedSass
