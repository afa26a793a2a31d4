/-
  What formatting leaves of a text.

  Without conversion the formatter only touches white space: a line keeps what stands
  between its indentation and the white space at its end, but for the space that may be
  put behind the first colon of a declaration.

  * `Line.core` is what a line says, `Line.Respaced` compares two lines by it;
  * `Format.happens_formatLine`: what may happen to a line, and to one that is shielded by a
    comment or an ignore mark;
  * `Format.exists_recasts`: the edits of a text, line by line;
  * `formatText_respaced`: the lines of a formatted text that are not blank are those of
    the text, one for one, and no other character comes or goes;
  * `formatText_of_hidden_comment`: a shielded line may move where an ignore mark hides the
    beginning of a comment from the formatter.
-/
import Mathlib
import IndentedSass.Proofs.Format.Advance
import IndentedSass.Proofs.Format.Comments
import IndentedSass.Proofs.Text.LineEdits

namespace IndentedSass

/-! ## Characters that are no white space -/

namespace Text

variable {t ws pre : Text}

/-- The characters of a text that are no white space. -/
def ink (t : Text) : Text := t.filter fun c => !isWhite c

theorem ink_append (s t : Text) : ink (s ++ t) = ink s ++ ink t := List.filter_append ..

theorem ink_of_white (hw : White ws) : ink ws = [] := by
  refine List.filter_eq_nil_iff.2 fun c hc => ?_
  rw [hw c hc]
  exact Bool.false_ne_true

theorem white_of_blanks (h : Blanks pre) : White pre := fun c hc => isWhite_of_isBlank (h c hc)

theorem white_ending (t : Text) : White t.ending := by
  unfold ending
  split
  · intro c hc
    rw [List.mem_singleton.1 hc]
    decide
  · exact fun c hc => nomatch hc

theorem white_endings (t : Text) : White t.endings := by
  intro c hc
  rcases List.mem_append.1 hc with hc | hc
  · exact white_ending _ c hc
  · exact white_ending _ c hc

theorem not_mem_ending (t : Text) : '\n' ∉ t.ending := by
  unfold ending
  split <;> decide

theorem not_mem_endings (t : Text) : '\n' ∉ t.endings := by
  rw [endings, List.mem_append, not_or]
  exact ⟨not_mem_ending _, not_mem_ending _⟩

theorem ink_dropReturn (t : Text) : ink t.dropReturn = ink t := by
  conv_rhs => rw [← t.dropReturn_append_ending]
  rw [ink_append, ink_of_white t.white_ending, List.append_nil]

/-- Line breaks are white space. -/
theorem ink_unlines (ls : List Text) : ink (unlines ls) = ls.flatMap ink := by
  cases ls with
  | nil => rfl
  | cons first rest =>
    induction rest generalizing first with
    | nil => simp
    | cons second rest ih =>
      rw [unlines_cons_cons, ink_append, List.flatMap_cons, ← ih second]
      rfl

end Text

/-! ## What a line says -/

namespace Line

variable {line new text pre ws : Text}

/-- What a line says: the line without its indentation and the white space at its end. -/
def core (line : Text) : Text := line.body.trimEnd

theorem core_white (hw : White ws) (t : Text) : core (t ++ ws) = core t := by
  unfold core
  rcases Text.body_white hw t with ⟨hnil, hwhite⟩ | ⟨-, hbody⟩
  · rw [hnil, ← List.nil_append (Text.body (t ++ ws)), Text.trimEnd_white hwhite]
  · rw [hbody, Text.trimEnd_white hw]

theorem core_trimEnd (t : Text) : core t.trimEnd = core t := by
  obtain ⟨ws, hw, hsplit⟩ := t.exists_white
  conv_rhs => rw [hsplit]
  rw [core_white hw]

theorem core_dropReturn (t : Text) : core t.dropReturn = core t := by
  conv_rhs => rw [← t.dropReturn_append_ending]
  rw [core_white t.white_ending]

theorem core_blanks (h : Blanks pre) (t : Text) : core (pre ++ t) = core t := by
  rw [core, Text.body_blanks h, core]

theorem core_body (t : Text) : core t.body = core t := by
  conv_rhs => rw [← t.blanks_append_body]
  rw [core_blanks t.blanks_blanks]

theorem core_reindent (style : IndentStyle) (offset : Int) (t : Text) :
    core (reindent style offset t) = core t := by
  rw [reindent, core_blanks (Indent.blanks_ofColumn _ _), core_body]

/-- A blank line says nothing. -/
theorem core_eq_nil_iff : core line = [] ↔ isBlankLine line = true := by
  constructor
  · intro hnil
    by_contra hvisible
    exact body_of_visible (Bool.eq_false_iff.2 hvisible) hnil
  · intro hblank
    have hwhite := core_white (white_of_isBlankLine hblank) []
    exact hwhite

/-- All characters of a line but white space are in what it says. -/
theorem ink_core (t : Text) : Text.ink (core t) = Text.ink t := by
  obtain ⟨ws, hw, hsplit⟩ := Text.exists_white t.body
  conv_rhs => rw [← t.blanks_append_body, hsplit]
  rw [Text.ink_append, Text.ink_append, Text.ink_of_white (Text.white_of_blanks t.blanks_blanks),
    Text.ink_of_white hw, List.nil_append, List.append_nil, core]

/-- What stands behind a line that is not blank does not count as its indentation. -/
theorem blanks_append (hvisible : isBlankLine line = false) (ws : Text) :
    (line ++ ws).blanks = line.blanks := by
  cases hbody : line.body with
  | nil =>
    have hnil : core line = [] := by rw [core, hbody]; rfl
    rw [core_eq_nil_iff.1 hnil] at hvisible
    cases hvisible
  | cons c rest =>
    have hc : ¬isBlank c = true := by
      rw [isBlank_head_body hbody]
      exact Bool.false_ne_true
    have hcut : (line.blanks ++ c :: (rest ++ ws)).takeWhile isBlank = line.blanks := by
      rw [List.takeWhile_append_of_pos line.blanks_blanks, List.takeWhile_cons_of_neg hc,
        List.append_nil]
    have hline : line ++ ws = line.blanks ++ c :: (rest ++ ws) := by
      rw [← List.cons_append, ← hbody, ← List.append_assoc, line.blanks_append_body]
    rw [hline]
    exact hcut

theorem blanks_trimEnd (hvisible : isBlankLine line = false) :
    line.trimEnd.blanks = line.blanks := by
  obtain ⟨ws, hw, hsplit⟩ := line.exists_white
  have hvisible' : isBlankLine line.trimEnd = false := by
    rwa [hsplit, isBlankLine_white hw] at hvisible
  conv_rhs => rw [hsplit]
  rw [blanks_append hvisible']

theorem blanks_dropReturn (hvisible : isBlankLine line = false) :
    line.dropReturn.blanks = line.blanks := by
  have hvisible' : isBlankLine line.dropReturn = false := by
    rwa [← line.dropReturn_append_ending, isBlankLine_white line.white_ending] at hvisible
  conv_rhs => rw [← line.dropReturn_append_ending]
  rw [blanks_append hvisible']

/-- `new` says what `line` says, but for a space that may have come behind the first colon
    of a declaration. -/
def Respaced (line new : Text) : Prop :=
  core new = core line ∨
    (isProperty line || isVariable line) = true ∧ ∃ name value, ':' ∉ name ∧
      core line = name ++ ':' :: value ∧ core new = name ++ ':' :: ' ' :: value

theorem Respaced.refl (line : Text) : Respaced line line := .inl rfl

/-- What a line is respaced to matters by what it says. -/
theorem Respaced.of_core (h : Respaced line text) (hcore : core new = core text) :
    Respaced line new := by
  rw [Respaced, hcore]
  exact h

theorem Respaced.isBlankLine (h : Respaced line new) : isBlankLine new = isBlankLine line := by
  rw [Bool.eq_iff_iff, ← core_eq_nil_iff, ← core_eq_nil_iff]
  obtain hsame | ⟨-, name, value, -, hline, hnew⟩ := h
  · rw [hsame]
  · simp [hline, hnew]

theorem Respaced.ink (h : Respaced line new) : Text.ink new = Text.ink line := by
  rw [← ink_core new, ← ink_core line]
  obtain hsame | ⟨-, name, value, -, hline, hnew⟩ := h
  · rw [hsame]
  · rw [hline, hnew, Text.ink_append, Text.ink_append]
    rfl

/-- The space behind the colon of a declaration respaces the line. -/
theorem respaced_spaceAfterColon (hd : (isProperty line || isVariable line) = true) :
    Respaced line (spaceAfterColon line) := by
  cases hspace : hasSpaceAfterColon line with
  | true =>
    rw [spaceAfterColon_of_hasSpace hspace]
    exact .refl line
  | false =>
    obtain ⟨name, c, rest, hne, hname, hc, hbody, hspaced⟩ := spaceAfterColon_spec hspace
    have hvalue : Text.trimEnd (c :: rest) ≠ [] := by
      intro hnil
      obtain ⟨ws, hw, hsplit⟩ := Text.exists_white (c :: rest)
      rw [hnil, List.nil_append] at hsplit
      have hwhite := hw c (by rw [← hsplit]; exact List.mem_cons_self)
      rw [hc] at hwhite
      cases hwhite
    have hcut (n : Text) : Text.trimEnd (n ++ c :: rest) = n ++ Text.trimEnd (c :: rest) :=
      Text.trimEnd_append hvalue
    refine .inr ⟨hd, name, Text.trimEnd (c :: rest), fun hmem => ?_, ?_, ?_⟩
    · exact absurd (hname ':' hmem) (by decide)
    · rw [core, hbody]
      simpa using hcut (name ++ [':'])
    · rw [hspaced, core_blanks line.blanks_blanks, core, body_named hne hname]
      simpa using hcut (name ++ [':', ' '])

/-- Whether a line with the lines `done` before it is not to be moved: it is in a block
    comment, opens one, or stands behind an ignore mark. -/
def Shielded (done : List Text) (line : Text) : Prop :=
  (opener done).isSome = true ∨ opensBlockComment line = true ∨ endsMarked done = true

end Line

namespace Format

variable {config : FormatConfig} {style : IndentStyle} {st : FormatState} {role : LineRole}
  {line new text : Text} {index : Nat} {next? : Option Text}

/-! ## One line -/

/-- What the formatter may make of a line. -/
structure Recast (line new : Text) : Prop where
  respaced : Line.Respaced line new
  feed : '\n' ∈ new → '\n' ∈ line

theorem Recast.refl (line : Text) : Recast line line := ⟨.refl line, id⟩

theorem Recast.trimEnd (h : Recast line text) : Recast line text.trimEnd where
  respaced := h.respaced.of_core (Line.core_trimEnd text)
  feed := fun hmem => h.feed (Text.mem_of_mem_trimEnd hmem)

theorem Recast.reindent (h : Recast line text) (style : IndentStyle) (offset : Int) :
    Recast line (reindent style offset text) where
  respaced := h.respaced.of_core (Line.core_reindent style offset text)
  feed := by
    intro hmem
    rcases List.mem_append.1 hmem with hblank | hbody
    · exact absurd (Indent.blanks_ofColumn _ _ _ hblank) (by decide)
    · exact h.feed (List.dropWhile_subset _ hbody)

theorem Recast.withNormalIndent (h : Recast line text) (config : FormatConfig)
    (style : IndentStyle) : Recast line (withNormalIndent config style text).1 := by
  unfold Format.withNormalIndent
  split
  · exact h.reindent style 0
  · exact h

theorem recast_spaceAfterColon (hd : (Line.isProperty line || Line.isVariable line) = true) :
    Recast line (Line.spaceAfterColon line) where
  respaced := Line.respaced_spaceAfterColon hd
  feed := by
    intro hmem
    cases hspace : Line.hasSpaceAfterColon line with
    | true => rwa [Line.spaceAfterColon_of_hasSpace hspace] at hmem
    | false =>
      obtain ⟨name, c, rest, -, -, -, hbody, hspaced⟩ := Line.spaceAfterColon_spec hspace
      rw [← line.blanks_append_body, hbody]
      rw [hspaced] at hmem
      simpa using hmem

theorem Recast.newText? (h : Recast line text) {offset : Int} {how : LineChange}
    {moved event : FormatEvent}
    (hnew : newText? config style index line text offset how moved = some (new, event)) :
    Recast line new := by
  unfold Format.newText? at hnew
  split_ifs at hnew
  · cases hnew
    exact (h.reindent style offset).trimEnd
  · cases hnew
    exact h.trimEnd
  · cases hnew
    exact h

/-- A line is replaced by what may be made of it; one that is shielded only loses white
    space at its end. -/
def Recasts (shielded : Prop) (index : Nat) (line : Text) (edit? : Option Edit) : Prop :=
  ∃ new, edit? = replaceLine index line new ∧ Recast line new ∧
    (shielded → new = line ∨ new = line.trimEnd)

/-- What may happen to a line: a blank one that is not the last may go. -/
def Happens (shielded : Prop) (index : Nat) (line : Text) (next? : Option Text)
    (edit? : Option Edit) : Prop :=
  Recasts shielded index line edit? ∨
    edit? = some (removeLine index) ∧ Line.isBlankLine line = true ∧ next?.isSome

theorem recasts_none (shielded : Prop) (index : Nat) (line : Text) :
    Recasts shielded index line none :=
  ⟨line, (replaceLine_self index line).symm, .refl line, fun _ => .inl rfl⟩

theorem recasts_trimLine (shielded : Prop) :
    Recasts shielded index line (trimLine config st index line).edit? := by
  unfold trimLine
  split
  · exact ⟨line.trimEnd, rfl, (Recast.refl line).trimEnd, fun _ => .inr rfl⟩
  · exact recasts_none shielded index line

theorem recasts_formatHeader (hconvert : config.convertBraces = false) :
    Recasts False index line (formatHeader config style role st index line).edit? := by
  have hoff : converts config st line = false := by rw [converts, hconvert, Bool.false_and, Bool.false_and]
  unfold formatHeader
  simp only [hoff, Bool.false_eq_true, if_false]
  split
  · exact recasts_none False index line
  · rename_i newText event hnew
    refine ⟨newText, by simp [ruleLines], ?_, False.elim⟩
    exact ((Recast.refl line).withNormalIndent config style).newText? hnew

theorem recasts_formatProperty (hconvert : config.convertBraces = false)
    (hrole : role.isDeclaration = (Line.isProperty line || Line.isVariable line)) :
    Recasts False index line (formatProperty config style role st index line).edit? := by
  have hoff (st : FormatState) : converts config st line = false := by
    rw [converts, hconvert, Bool.false_and, Bool.false_and]
  -- the space first, then the indentation
  have hspaced : Recast line
      (if role.isDeclaration && !Line.hasSpaceAfterColon line && config.spaceAfterColon then
        Line.spaceAfterColon line else line) := by
    split_ifs with hspace
    · rw [hrole, Bool.and_eq_true, Bool.and_eq_true] at hspace
      exact recast_spaceAfterColon hspace.1.1
    · exact .refl line
  have hindented (offset : Int) : Recast line (if offset = 0 then withNormalIndent config style
      (if role.isDeclaration && !Line.hasSpaceAfterColon line && config.spaceAfterColon then
        Line.spaceAfterColon line else line)
      else (if role.isDeclaration && !Line.hasSpaceAfterColon line && config.spaceAfterColon then
        Line.spaceAfterColon line else line, false)).1 := by
    split
    · exact hspaced.withNormalIndent config style
    · exact hspaced
  unfold formatProperty
  dsimp only
  simp only [hoff, Bool.false_eq_true, if_false]
  split
  · exact recasts_none False index line
  · rename_i newText event hnew
    exact ⟨newText, rfl, (hindented _).newText? hnew, False.elim⟩

theorem happens_formatBlank (hblank : Line.isBlankLine line = true) :
    Happens False index line next? (formatBlank config st index line next?).edit? := by
  unfold formatBlank
  split_ifs with hnext
  · obtain ⟨next, hmem, -⟩ := (Option.any_eq_true ..).1 hnext
    exact .inr ⟨rfl, hblank, Option.isSome_of_mem hmem⟩
  · refine .inl ⟨[], rfl, ⟨.inl ?_, fun h => nomatch h⟩, False.elim⟩
    rw [Line.core_eq_nil_iff.2 hblank]
    rfl
  · exact .inl (recasts_none False index line)

theorem happens_formatCode (hconvert : config.convertBraces = false) :
    Happens False index line next? (formatCode config style st index line next?).edit? := by
  have hoff (st : FormatState) : converts config st line = false := by
    rw [converts, hconvert, Bool.false_and, Bool.false_and]
  have hrole : (LineRole.ofLine style.tabStop st line).1.isDeclaration =
      (Line.isProperty line || Line.isVariable line) := rfl
  unfold formatCode
  generalize LineRole.ofLine style.tabStop st line = p at hrole
  obtain ⟨role, st'⟩ := p
  dsimp only at hrole ⊢
  generalize (if Line.isSpaceMark line then { st' with keepBlanks := true } else st') = st''
  split
  · exact .inl (recasts_formatHeader hconvert)
  split
  · exact .inl (recasts_formatProperty hconvert hrole)
  split
  · rename_i hblank
    exact happens_formatBlank hblank
  rw [if_neg (by rw [hoff]; exact Bool.false_ne_true)]
  exact .inl (recasts_trimLine False)

/-- What happens to a line without conversion.  Comments and the line behind an ignore
    mark are shielded. -/
theorem happens_formatLine (hconvert : config.convertBraces = false) (style : IndentStyle)
    (st : FormatState) (index : Nat) (line : Text) (next? : Option Text) :
    Happens (st.ignoreNext = true ∨ st.inBlockComment = true ∨ Line.opensBlockComment line = true)
      index line next? (formatLine config style st index line next?).edit? := by
  unfold formatLine
  split_ifs with hignore hcomment hopens hmark
  · exact .inl (recasts_none _ index line)
  · exact .inl (recasts_trimLine _)
  · exact .inl (recasts_trimLine _)
  · exact .inl (recasts_trimLine _)
  · have hshield : ¬(st.ignoreNext = true ∨ st.inBlockComment = true ∨
      Line.opensBlockComment line = true) := by tauto
    rw [eq_false hshield]
    exact happens_formatCode hconvert

/-! ## The lines of a text -/

/-- `new` is what is left of a line with the lines `done` before it. -/
structure Kept (done : List Text) (line new : Text) : Prop where
  respaced : Line.Respaced line new
  blanks : Line.HidesNothing done → Line.Shielded done line → new.blanks = line.blanks

/-- What may happen to a line, as an edit of it. -/
theorem exists_recast {shielded : Prop} (h : Happens shielded index line.dropReturn next? edit?) :
    ∃ e : LineEdit, edit? = e.edit? index line ∧
      (e = .remove ∧ Line.isBlankLine line.dropReturn = true ∧ next?.isSome ∨
        ∃ new, e.apply line = some new ∧ ('\n' ∈ new → '\n' ∈ line) ∧
          Line.Respaced line.dropReturn new.dropReturn ∧
          (Line.isBlankLine line.dropReturn = false → shielded →
            new.dropReturn.blanks = line.dropReturn.blanks)) := by
  obtain ⟨new, hedit, hrecast, hshield⟩ | ⟨hedit, hblank, hnext⟩ := h
  · have hreplaced : ∃ e : LineEdit, edit? = e.edit? index line ∧
        ∃ ws, White ws ∧ '\n' ∉ ws ∧ e.apply line = some (new ++ ws) := by
      by_cases hsame : new = line.dropReturn
      · refine ⟨.keep, ?_, line.ending, line.white_ending, line.not_mem_ending, ?_⟩
        · rw [hedit, hsame, replaceLine_self]
          rfl
        · rw [hsame, line.dropReturn_append_ending]
          rfl
      · refine ⟨.replace new, ?_, line.endings, line.white_endings, line.not_mem_endings, rfl⟩
        rw [hedit, replaceLine, if_neg hsame]
        rfl
    obtain ⟨e, hedit', ws, hw, hfeed, happly⟩ := hreplaced
    refine ⟨e, hedit', .inr ⟨new ++ ws, happly, fun hmem => ?_, ?_, fun hvisible hshielded => ?_⟩⟩
    · rw [← line.dropReturn_append_ending]
      exact List.mem_append_left _ (hrecast.feed ((List.mem_append.1 hmem).resolve_right hfeed))
    · refine hrecast.respaced.of_core ?_
      rw [Line.core_dropReturn, Line.core_white hw]
    · have hvisible' : Line.isBlankLine new = false := by
        rwa [hrecast.respaced.isBlankLine]
      rw [Line.blanks_dropReturn (by rwa [Line.isBlankLine_white hw]),
        Line.blanks_append hvisible']
      rcases hshield hshielded with rfl | rfl
      · rfl
      · exact Line.blanks_trimEnd hvisible
  · exact ⟨.remove, hedit, .inl ⟨rfl, hblank, hnext⟩⟩

/-- The edits of lines without conversion, with the lines `done` before them: the lines
    that are not blank are kept, one for one. -/
theorem exists_recasts (hconvert : config.convertBraces = false) (style : IndentStyle)
    {all : List Text} : ∀ (lines done : List Text) (st : FormatState) (index : Nat),
    all = done ++ lines.map Text.dropReturn → FollowsMarks done st →
    ∃ changes : List (Text × LineEdit), changes.map Prod.fst = lines ∧
      (formatLines config style st index (lines.map Text.dropReturn)).filterMap LineResult.edit? =
        LineEdit.edits index changes ∧
      LineEdit.KeepsLast changes ∧
      (∀ new ∈ LineEdit.applyAll changes, '\n' ∈ new → ∃ line ∈ lines, '\n' ∈ line) ∧
      List.Forall₂ (fun old new => Kept (all.take old.2) old.1 new)
        (((lines.map Text.dropReturn).zipIdx done.length).filter
          fun old => !Line.isBlankLine old.1)
        (((LineEdit.applyAll changes).map Text.dropReturn).filter
          fun new => !Line.isBlankLine new) := by
  intro lines
  induction lines with
  | nil =>
    intro done st index _ _
    exact ⟨[], rfl, rfl, (fun change hchange => nomatch hchange), (fun _ h => nomatch h), .nil⟩
  | cons line rest ih =>
    intro done st index hall hst
    obtain ⟨changes, hfst, hedits, hlast, hfeed, hkept⟩ := ih (done ++ [line.dropReturn]) _
      (index + 1) (by rw [hall, List.map_cons, List.append_cons])
      (hst.formatLine config style index line.dropReturn (rest.map Text.dropReturn).head?)
    obtain ⟨e, hedit, hcases⟩ := exists_recast
      (happens_formatLine hconvert style st index line.dropReturn (rest.map Text.dropReturn).head?)
    have htake : all.take done.length = done := by rw [hall, List.take_left]
    rw [List.length_append, List.length_singleton] at hkept
    refine ⟨(line, e) :: changes, by rw [List.map_cons, hfst], ?_, hlast.cons fun hnil he => ?_,
      ?_, ?_⟩
    · rw [List.map_cons, formatLines, List.filterMap_cons, hedits, LineEdit.edits, hedit]
      cases e.edit? index line <;> rfl
    · obtain ⟨-, -, hnext⟩ | ⟨new, happly, -⟩ := hcases
      · rw [hnil] at hfst
        rw [← hfst] at hnext
        cases hnext
      · rw [he] at happly
        cases happly
    · intro new hnew hmem
      rw [LineEdit.applyAll_cons] at hnew
      obtain ⟨he, -⟩ | ⟨new', happly, hfeed', -⟩ := hcases
      · rw [he] at hnew
        obtain ⟨l, hl, hl'⟩ := hfeed new hnew hmem
        exact ⟨l, List.mem_cons_of_mem line hl, hl'⟩
      · rw [happly] at hnew
        rcases List.mem_cons.1 hnew with rfl | hnew
        · exact ⟨line, List.mem_cons_self, hfeed' hmem⟩
        · obtain ⟨l, hl, hl'⟩ := hfeed new hnew hmem
          exact ⟨l, List.mem_cons_of_mem line hl, hl'⟩
    · rw [List.map_cons, List.zipIdx_cons, List.filter_cons, LineEdit.applyAll_cons]
      obtain ⟨he, hblank, -⟩ | ⟨new, happly, -, hrespaced, hblanks⟩ := hcases
      · rw [if_neg (by rw [hblank]; exact Bool.false_ne_true), he]
        exact hkept
      · rw [happly, Option.toList_some, List.singleton_append, List.map_cons, List.filter_cons,
          hrespaced.isBlankLine]
        cases hvisible : Line.isBlankLine line.dropReturn with
        | true => exact hkept
        | false =>
          refine .cons ⟨hrespaced, ?_⟩ hkept
          dsimp only
          rw [htake]
          intro hhides hshielded
          obtain ⟨hcomment, hignore⟩ := hst hhides
          refine hblanks hvisible ?_
          rcases hshielded with hopen | hopens | hmarked
          · exact .inr (.inl (hcomment.trans hopen))
          · exact .inr (.inr hopens)
          · exact .inl (hignore.trans hmarked)

/-- The lines that are not blank hold all characters but white space. -/
theorem flatMap_ink_visible (lines : List Text) :
    (lines.filter fun line => !Line.isBlankLine line).flatMap Text.ink = lines.flatMap Text.ink := by
  induction lines with
  | nil => rfl
  | cons line rest ih =>
    rw [List.filter_cons, List.flatMap_cons, ← ih]
    cases hblank : Line.isBlankLine line with
    | true =>
      have hnone : Text.ink line = [] := by
        rw [← Line.ink_core, Line.core_eq_nil_iff.2 hblank]
        rfl
      rw [hnone]
      rfl
    | false => rfl

/-- Lines that are kept keep their characters but white space. -/
theorem flatMap_ink_kept {all news : List Text} {olds : List (Text × Nat)}
    (h : List.Forall₂ (fun old new => Kept (all.take old.2) old.1 new) olds news) :
    news.flatMap Text.ink = (olds.map Prod.fst).flatMap Text.ink := by
  induction h with
  | nil => rfl
  | cons hkept _ ih => rw [List.map_cons, List.flatMap_cons, List.flatMap_cons, ih, hkept.respaced.ink]

theorem filter_zipIdx (lines : List Text) :
    ((lines.zipIdx.filter fun old => !Line.isBlankLine old.1).map Prod.fst) =
      lines.filter fun line => !Line.isBlankLine line := by
  conv_rhs => rw [← List.zipIdx_map_fst 0 lines]
  rw [List.filter_map]
  rfl

/-- A text of which no line changes. -/
theorem forall₂_kept_self (lines : List Text) :
    List.Forall₂ (fun old new => Kept (lines.take old.2) old.1 new)
      (lines.zipIdx.filter fun old => !Line.isBlankLine old.1)
      (lines.filter fun line => !Line.isBlankLine line) := by
  rw [← filter_zipIdx, List.forall₂_map_right_iff]
  exact List.forall₂_same.2 fun old _ => ⟨.refl old.1, fun _ _ => rfl⟩

/-- A text is left alone when formatting is switched off. -/
theorem formatText_of_disabled (henabled : config.enabled = false) :
    formatText config style text = text := by
  simp [formatText, formatEdits, results, henabled, Text.applyEdits]

theorem forall₂_kept_formatText (hconvert : config.convertBraces = false) (style : IndentStyle)
    (text : Text) (hcount : text.lines.length ≤ positionLimit)
    (hlength : ∀ line ∈ text.lines, line.dropReturn.length < positionLimit) :
    List.Forall₂ (fun old new => Kept ((text.lines.map Text.dropReturn).take old.2) old.1 new)
      ((text.lines.map Text.dropReturn).zipIdx.filter fun old => !Line.isBlankLine old.1)
      (((formatText config style text).lines.map Text.dropReturn).filter
        fun new => !Line.isBlankLine new) := by
  cases henabled : config.enabled with
  | false =>
    rw [formatText_of_disabled henabled]
    exact forall₂_kept_self _
  | true =>
    obtain ⟨changes, hfst, hedits, hlast, hfeed, hkept⟩ :=
      exists_recasts hconvert style text.lines [] {} 0 rfl followsMarks_start
    have hlines : (formatText config style text).lines = LineEdit.applyAll changes := by
      rw [formatText, formatEdits, results, if_pos henabled, hedits]
      refine Text.lines_applyEdits hfst.symm hcount hlength hlast fun new hnew hmem => ?_
      obtain ⟨line, hline, hfeed⟩ := hfeed new hnew hmem
      exact Text.not_mem_of_mem_lines hline hfeed
    rw [hlines]
    exact hkept

end Format

/-- Without conversion the lines of a formatted text that are not blank are, one for one,
    those of the text, but for blanks in front, white space at the end and a space behind
    the first colon of a declaration.  Lines of comments and lines behind ignore marks keep
    the blanks in front, unless such a mark hides another one or the beginning of a comment
    from the formatter.  Characters other than white space neither come nor go. -/
theorem formatText_respaced (config : FormatConfig) (style : IndentStyle) (text : Text)
    (hconvert : config.convertBraces = false) (hcount : text.lines.length ≤ positionLimit)
    (hlength : ∀ line ∈ text.lines, line.dropReturn.length < positionLimit) :
    let lines := text.lines.map Text.dropReturn
    let news := (formatText config style text).lines.map Text.dropReturn
    List.Forall₂ (fun old new => Line.Respaced old.1 new ∧
        (Line.HidesNothing (lines.take old.2) → Line.Shielded (lines.take old.2) old.1 →
          new.blanks = old.1.blanks))
      (lines.zipIdx.filter fun old => !Line.isBlankLine old.1)
      (news.filter fun new => !Line.isBlankLine new) ∧
    (formatText config style text).filter (fun c => !isWhite c) =
      text.filter (fun c => !isWhite c) := by
  intro lines news
  have hkept := Format.forall₂_kept_formatText hconvert style text hcount hlength
  refine ⟨hkept.imp fun old new h => ⟨h.respaced, h.blanks⟩, ?_⟩
  have hink := Format.flatMap_ink_kept hkept
  rw [Format.filter_zipIdx, Format.flatMap_ink_visible, Format.flatMap_ink_visible] at hink
  have hdrop : ∀ ls : List Text, (ls.map Text.dropReturn).flatMap Text.ink = ls.flatMap Text.ink := by
    intro ls
    rw [List.flatMap_map]
    exact List.flatMap_congr fun l _ => l.ink_dropReturn
  rw [hdrop, hdrop, ← Text.ink_unlines, ← Text.ink_unlines, Text.unlines_lines,
    Text.unlines_lines] at hink
  exact hink

/-- A block comment, and an ignore mark that hides nothing, in a sheet that the formatter changes. -/
theorem formatText_respaced_comment :
    Line.HidesNothing ((Text.lines "a\n     b:c \n\n/* d\n   e\n*/\n// I\n    f\r".toList).map
      Text.dropReturn) ∧
    formatEdits { convertBraces := false } {} "a\n     b:c \n\n/* d\n   e\n*/\n// I\n    f\r".toList ≠
      [] ∧
    (formatText { convertBraces := false } {}
        "a\n     b:c \n\n/* d\n   e\n*/\n// I\n    f\r".toList).filter (fun c => !isWhite c) =
      "a\n     b:c \n\n/* d\n   e\n*/\n// I\n    f\r".toList.filter (fun c => !isWhite c) := by
  have hrespaced := formatText_respaced { convertBraces := false } {}
    "a\n     b:c \n\n/* d\n   e\n*/\n// I\n    f\r".toList rfl (by decide) (by decide)
  exact ⟨by decide +kernel, by decide +kernel, hrespaced.2⟩

/-- An ignore mark hides the beginning of a comment from the formatter: `  b` is in the
    comment, but it moves. -/
theorem formatText_of_hidden_comment :
    ((Text.lines "// I\n/* a\n  b\n*/".toList).map Text.dropReturn)[2]? = some "  b".toList ∧
    (Line.opener (((Text.lines "// I\n/* a\n  b\n*/".toList).map Text.dropReturn).take 2)).isSome ∧
    formatText { convertBraces := false } {} "// I\n/* a\n  b\n*/".toList =
      "// I\n/* a\nb\n*/".toList := by
  decide +kernel

end IndentedSass
