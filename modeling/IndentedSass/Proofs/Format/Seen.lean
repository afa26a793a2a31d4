/-
  A formatted line, as a reader sees it.

  * `Line.EndsSafely`: the white space at the end of a line can go without a trace in what
    is read;
  * `Format.Trims.exists_parts`: the parts of a line that was written;
  * `Format.Trims.readsAlike`: such a line is read as the line was, wherever it stands.
-/
import Mathlib
import IndentedSass.Proofs.Format.Advance
import IndentedSass.Proofs.Reader.Outline

namespace IndentedSass

variable {v line new target text t : Text}

/-! ## The ends of lines -/

/-- The white space at the end of a value does not belong to it: there is none, or blanks
    outside of strings. -/
def EndsSoftly (v : Text) : Prop :=
  v.endWhite = [] ∨ (v.endWhite.all isBlank = true ∧ v.trimEnd.Closed .paired)

instance (v : Text) : Decidable (EndsSoftly v) := inferInstanceAs (Decidable (_ ∨ _))

theorem sameValue_trimEnd (h : EndsSoftly v) : SameValue v v.trimEnd := by
  rcases h with hnone | ⟨hblanks, hclosed⟩
  · rw [Text.endWhite_eq_nil_iff.1 hnone]
    exact .refl v
  · have hsame := SameValue.blanks hclosed (fun c hc => List.all_eq_true.1 hblanks c hc)
    rwa [Text.trimEnd_append_endWhite] at hsame

namespace Line

/-- The white space at the end of a line does not belong to what is read of it. -/
structure EndsSafely (line : Text) : Prop where
  /-- There is no carriage return but that of the line break. -/
  carriage : line.dropReturn = line
  /-- A lone `+` is a selector before a blank only. -/
  sigil : line.trim ≠ ['+']
  value : (isProperty line || isVariable line) = true →
    ∀ d ∈ nameAndValue? line, EndsSoftly d.2

theorem endsSafely_iff : EndsSafely line ↔ line.dropReturn = line ∧ line.trim ≠ ['+'] ∧
    ((isProperty line || isVariable line) = true →
      ((nameAndValue? line).all fun d => decide (EndsSoftly d.2)) = true) := by
  have hvalue : ((nameAndValue? line).all fun d => decide (EndsSoftly d.2)) = true ↔
      ∀ d ∈ nameAndValue? line, EndsSoftly d.2 := by
    cases nameAndValue? line <;> simp
  rw [hvalue]
  exact ⟨fun h => ⟨h.carriage, h.sigil, h.value⟩, fun ⟨h, h', h''⟩ => ⟨h, h', h''⟩⟩

instance (line : Text) : Decidable (EndsSafely line) := decidable_of_iff' _ endsSafely_iff

end Line

namespace Format

variable {config : FormatConfig} {style : IndentStyle} {st : FormatState} {column : Nat}

/-! ## The parts of a line that was written -/

variable (config style column) in
theorem exists_trimEnd_placed (hvisible : Line.isBlankLine text = false) :
    ∃ pre, Blanks pre ∧ (placed config style column text).trimEnd = pre ++ Text.trimEnd text.body := by
  obtain ⟨pre, b, hplaced, hblanks, hb, -⟩ := placed_spec config style column hvisible
  have hbody := Line.body_of_visible hvisible
  refine ⟨pre, hblanks, ?_⟩
  rw [hplaced]
  rcases hb with rfl | rfl
  · exact Text.trimEnd_append hbody
  · rw [Text.trimEnd_append (by rwa [Text.trimEnd_trimEnd]), Text.trimEnd_trimEnd]

/-- What a line is placed as: itself, or the declaration with the space after its colon. -/
def Spells (line text : Text) : Prop :=
  text = line ∨ (Line.isProperty line || Line.isVariable line) = true ∧
    text = Line.spaceAfterColon line

theorem Spells.traits (h : Spells line text) : Line.traits text = Line.traits line := by
  rcases h with rfl | ⟨hd, rfl⟩
  · rfl
  · exact Line.traits_spaceAfterColon hd

theorem Spells.endWhite (h : Spells line text) : text.endWhite = line.endWhite := by
  rcases h with rfl | ⟨-, rfl⟩
  · rfl
  · exact endWhite_spaceAfterColon line

theorem Spells.visible (h : Spells line text) (hvisible : Line.isBlankLine line = false) :
    Line.isBlankLine text = false :=
  (congrArg Line.Traits.isBlankLine h.traits).trans hvisible

variable (config) in
theorem spells_spaced (tab : Nat) (st : FormatState) (line : Text) :
    Spells line (spaced config (LineRole.ofLine tab st line).1 line) := by
  unfold spaced
  split
  · rename_i h
    exact .inr ⟨(Bool.and_eq_true_iff.1 h).1, rfl⟩
  · exact .inl rfl

variable (config style st) in
theorem trimEnd_advance (hvisible : Line.isBlankLine line = false) :
    ∃ pre text, Blanks pre ∧ Spells line text ∧
      (advance config style st line).2.trimEnd = pre ++ Text.trimEnd text.body := by
  have hstays : ∀ target : Text, target.trimEnd = line.trimEnd → ∃ pre text, Blanks pre ∧
      Spells line text ∧ target.trimEnd = pre ++ Text.trimEnd text.body := by
    intro target htarget
    refine ⟨line.blanks, line, line.blanks_blanks, .inl rfl, ?_⟩
    rw [htarget, ← Text.trimEnd_append (Line.body_of_visible hvisible), line.blanks_append_body]
  unfold advance
  split_ifs
  · exact hstays _ rfl
  · exact hstays _ (trimEnd_trimmed config line)
  · exact hstays _ (trimEnd_trimmed config line)
  · exact hstays _ (trimEnd_trimmed config line)
  unfold advanceCode
  dsimp only
  split_ifs
  · obtain ⟨pre, hpre, hplaced⟩ := exists_trimEnd_placed config style _ hvisible
    exact ⟨pre, line, hpre, .inl rfl, hplaced⟩
  · have hspells := spells_spaced config style.tabStop st line
    obtain ⟨pre, hpre, hplaced⟩ := exists_trimEnd_placed config style _ (hspells.visible hvisible)
    exact ⟨pre, _, hpre, hspells, hplaced⟩
  · exact hstays _ (trimEnd_trimmed config line)

/-- The parts of a line that was written: blanks, and what follows the indentation of the
    line, perhaps without the white space at its end. -/
theorem Trims.exists_parts (hvisible : Line.isBlankLine line = false)
    (h : Trims line (advance config style st line).2 new) :
    ∃ pre text b, Blanks pre ∧ Spells line text ∧ new = pre ++ b ∧
      (b = text.body ∨ b = Text.trimEnd text.body) := by
  obtain ⟨pre, text, hpre, hspells, hadvance⟩ := trimEnd_advance config style st hvisible
  refine ⟨pre, text, ?_⟩
  rw [Trims, hadvance] at h
  rcases h with rfl | rfl
  · exact ⟨_, hpre, hspells, rfl, .inr rfl⟩
  · refine ⟨_, hpre, hspells, List.append_assoc .., .inl ?_⟩
    have hbody := Line.body_of_visible (hspells.visible hvisible)
    have hends : text.body.endWhite = line.endWhite := by
      rw [← hspells.endWhite]
      conv_rhs => rw [← text.blanks_append_body]
      rw [Text.endWhite_append hbody]
    rw [← hends, Text.trimEnd_append_endWhite]

/-- What stands behind a line that is not blank does not move it. -/
theorem width_trimEnd_append (hvisible : Line.isBlankLine line = false) (tab : Nat) (ws : Text) :
    Indent.width tab (line.trimEnd ++ ws) = Indent.width tab line := by
  obtain ⟨c, rest, hc, hblank⟩ := Line.body_parts hvisible (.inr rfl)
  have hcut : line.trimEnd = line.blanks ++ c :: rest := by
    rw [← hc, ← Text.trimEnd_append (Line.body_of_visible hvisible), line.blanks_append_body]
  conv_rhs => rw [← line.trimEnd_append_endWhite]
  rw [hcut, List.append_assoc, List.append_assoc]
  exact Line.width_congr hblank _ _ _

/-- A line that is not blank stands where the formatter puts it. -/
theorem Trims.width (hvisible : Line.isBlankLine target = false) (h : Trims line target new) (tab : Nat) :
    Indent.width tab new = Indent.width tab target := by
  rcases h with rfl | rfl
  · rw [← width_trimEnd_append hvisible tab [], List.append_nil]
  · exact width_trimEnd_append hvisible tab _

/-! ## What is read of a line that was written -/

theorem body_trimEnd_body (hvisible : Line.isBlankLine text = false) :
    Text.body (Text.trimEnd text.body) = Text.trimEnd text.body := by
  obtain ⟨c, rest, hc, hblank⟩ := Line.body_parts hvisible (.inr rfl)
  rw [hc]
  exact List.dropWhile_cons_of_neg (by simp [hblank])

/-- Without the white space at its end a line is of the same kind. -/
theorem kindOutsideComment_trimEnd_body (hends : Line.EndsSafely line)
    (hvisible : Line.isBlankLine line = false) (hknown : Line.kindOutsideComment line ≠ .literal) :
    Line.kindOutsideComment (Text.trimEnd line.body) = Line.kindOutsideComment line := by
  have hkind : Line.kindOutsideComment (Text.trimEnd line.body ++ Text.endWhite line.body) =
      Line.kindOutsideComment line := by
    rw [Text.trimEnd_append_endWhite, ← Line.kindOutsideComment_blanks line.blanks_blanks,
      line.blanks_append_body]
  have hplus : Text.body (Text.trimEnd line.body) ≠ ['+'] := by
    rw [body_trimEnd_body hvisible]
    intro hplus
    refine hends.sigil ?_
    rw [← line.blanks_append_body, Text.trim_blanks line.blanks_blanks,
      ← Text.trimEnd_append_endWhite line.body, Text.trim_white (Text.white_endWhite _), hplus]
    rfl
  rw [← hkind]
  exact (Line.kindOutsideComment_white (Text.white_endWhite _) hplus (by rwa [hkind])).symm

/-- A declaration is one for the reader. -/
theorem kind_of_isDeclaration (hd : (Line.isProperty line || Line.isVariable line) = true) :
    Line.kindOutsideComment line = .property ∨ Line.kindOutsideComment line = .variableDecl := by
  have hquiet : ¬Line.IsInert line := by
    intro hinert
    rw [show Line.isProperty line = false from congrArg Line.Traits.isProperty hinert,
      show Line.isVariable line = false from congrArg Line.Traits.isVariable hinert] at hd
    cases hd
  have hblank : Line.isBlankLine line = false :=
    Bool.eq_false_iff.2 fun h => hquiet (Line.isInert_of_isBlankLine h)
  have hcomment : Line.isComment line = false :=
    Bool.eq_false_iff.2 fun h => hquiet (Line.isInert_of_isComment h)
  rw [Line.isComment, Bool.or_eq_false_iff] at hcomment
  rw [Line.kindOutsideComment, hblank, hcomment.1, hcomment.2]
  cases hvariable : Line.isVariable line with
  | true => exact .inr rfl
  | false =>
    rw [hvariable, Bool.or_false] at hd
    rw [hd]
    exact .inl rfl

/-- Only declarations are declarations for the reader. -/
theorem isDeclaration_of_kind (h : Line.kindOutsideComment line = .property ∨
    Line.kindOutsideComment line = .variableDecl) :
    (Line.isProperty line || Line.isVariable line) = true := by
  have hpassed := Line.passed_kind line
  rcases h with h | h
  · rw [h] at hpassed
    exact Bool.or_eq_true_iff.2 (.inl hpassed.2)
  · rw [h] at hpassed
    exact Bool.or_eq_true_iff.2 (.inr hpassed)

/-- The declaration with the space after its colon declares the same. -/
theorem Spells.nameAndValue (h : Spells line text)
    (hd : (Line.isProperty line || Line.isVariable line) = true) (hends : Line.EndsSafely line) :
    ∃ name v v', Line.nameAndValue? line = some (name, v) ∧
      Line.nameAndValue? text = some (name, v') ∧ SameValue v v' ∧ SameValue v (Text.trimEnd v') := by
  obtain ⟨pre, v, hsplit, hpre⟩ := Line.exists_colon hd
  have hvalue : Line.nameAndValue? line = some (pre.trim, v) := by
    rw [hsplit, Line.nameAndValue?_plain hpre]
  have hsoft := sameValue_trimEnd (hends.value hd _ hvalue)
  have hsame : text = line → ∃ name v v', Line.nameAndValue? line = some (name, v) ∧
      Line.nameAndValue? text = some (name, v') ∧ SameValue v v' ∧ SameValue v (Text.trimEnd v') :=
    fun htext => ⟨_, v, v, hvalue, htext ▸ hvalue, .refl v, hsoft⟩
  rcases h with htext | ⟨-, htext⟩
  · exact hsame htext
  cases hspace : Line.hasSpaceAfterColon line with
  | true => exact hsame (htext.trans (Line.spaceAfterColon_of_hasSpace hspace))
  | false =>
    obtain ⟨name, value, hline, hspaced⟩ := Line.nameAndValue?_spaceAfterColon hspace
    obtain ⟨rfl, rfl⟩ := Prod.mk.inj (Option.some.inj (hvalue.symm.trans hline))
    refine ⟨_, v, ' ' :: v, hvalue, htext ▸ hspaced, (SameValue.space v).symm, ?_⟩
    by_cases hnil : Text.trimEnd v = []
    · have hwhite : White (' ' :: v) := by
        rw [← Text.trimEnd_append_endWhite v, hnil]
        intro c hc
        rcases List.mem_cons.1 hc with rfl | hc
        · decide
        · exact Text.white_endWhite v c hc
      rw [show Text.trimEnd (' ' :: v) = [] from Text.trimEnd_white hwhite [], ← hnil]
      exact hsoft
    · have hcut : Text.trimEnd ([' '] ++ v) = [' '] ++ Text.trimEnd v := Text.trimEnd_append hnil
      rw [show ' ' :: v = [' '] ++ v from rfl, hcut]
      exact hsoft.trans (SameValue.space _).symm

/-- A line that was written is read as the line was. -/
theorem Trims.readsAlike (hends : Line.EndsSafely line) (hvisible : Line.isBlankLine line = false)
    (hknown : Line.kindOutsideComment line ≠ .literal)
    (h : Trims line (advance config style st line).2 new) : Line.ReadsAlike line new := by
  obtain ⟨pre, text, b, hpre, hspells, rfl, hb⟩ := h.exists_parts hvisible
  have hshown := hspells.visible hvisible
  -- neither the indentation nor the end counts
  have hseen : ∀ {α : Type} (f : Text → α), (∀ {pre : Text}, Blanks pre → ∀ t, f (pre ++ t) = f t) →
      f (pre ++ b) = f b ∧ f text = f text.body := by
    refine fun f hblanks => ⟨hblanks hpre b, ?_⟩
    conv_lhs => rw [← text.blanks_append_body]
    exact hblanks text.blanks_blanks _
  by_cases hd : (Line.isProperty line || Line.isVariable line) = true
  · have htraits : Line.traits (pre ++ b) = Line.traits line := by
      rw [(hseen Line.traits Line.traits_blanks).1, ← hspells.traits,
        (hseen Line.traits Line.traits_blanks).2]
      rcases hb with rfl | rfl
      · rfl
      · conv_rhs => rw [← Text.trimEnd_append_endWhite text.body]
        exact (Line.traits_white (Text.white_endWhite _) _).symm
    have hdeclares := kind_of_isDeclaration hd
    refine ⟨(Line.kindOutsideComment_of_traits htraits.symm hd).symm, fun hp hv => ?_, fun _ => ?_⟩
    · exact absurd hdeclares (by simp [hp, hv])
    · obtain ⟨name, v, v', hv, hv', hsame, htrim⟩ := hspells.nameAndValue hd hends
      have hbody : Line.nameAndValue? text.body = some (name, v') := by
        rw [← hv', (hseen Line.nameAndValue? Line.nameAndValue?_blanks).2]
      rw [(hseen Line.nameAndValue? Line.nameAndValue?_blanks).1]
      rcases hb with rfl | rfl
      · exact ⟨name, v, v', hv, hbody, hsame⟩
      · refine ⟨name, v, _, hv, Line.nameAndValue?_trimEnd ?_ hbody, htrim⟩
        have htext : Line.traits text.body = Line.traits line := by
          rw [← hspells.traits, (hseen Line.traits Line.traits_blanks).2]
        rwa [show Line.isProperty text.body = _ from congrArg Line.Traits.isProperty htext,
          show Line.isVariable text.body = _ from congrArg Line.Traits.isVariable htext]
  · obtain rfl : text = line := hspells.resolve_right fun h => hd h.1
    have hkind : Line.kindOutsideComment (pre ++ b) = Line.kindOutsideComment text := by
      rw [Line.kindOutsideComment_blanks hpre]
      rcases hb with rfl | rfl
      · exact (hseen Line.kindOutsideComment Line.kindOutsideComment_blanks).2.symm
      · exact kindOutsideComment_trimEnd_body hends hvisible hknown
    refine ⟨hkind, fun _ _ => ?_, fun h => absurd (isDeclaration_of_kind h) hd⟩
    rw [Text.body_blanks hpre]
    rcases hb with rfl | rfl
    · rw [show Text.body text.body = text.body from List.dropWhile_idempotent ..]
    · rw [body_trimEnd_body hvisible, Text.trimEnd_trimEnd]

end Format

end IndentedSass
