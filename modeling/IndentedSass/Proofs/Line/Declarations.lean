/-
  How a line is told to be a declaration, and where it is cut.

  The blanks around a line do not tell its kind (`Line.SameInside.kind_eq`), with one exception: `+`
  is nothing known, and `+` before a blank is a selector.

  * `Line.IsName` and `Line.IsVariableName` are the names that a declaration can have,
    `Line.NamedAt` says where a line has its name, its colon and its value;
  * `namedAt_of_plainName`, `namedAt_of_variableName`: the patterns of declarations find such a
    name;
  * `NamedAt.splitDeclaration?_eq`: the line is cut at the colon right behind that name, so a
    line that is told to be a declaration is cut (`Line.exists_cutAs`).
-/
import Mathlib
import IndentedSass.Proofs.Line.Clauses

namespace IndentedSass

variable {line name value t ws pre : Text}

/-! ## Blanks around a line -/

theorem Blanks.white (h : Blanks ws) : White ws := fun c hc => isWhite_of_isBlank (h c hc)

theorem endsElement_of_isBlank {c : Char} (h : isBlank c = true) : Line.endsElement c = true := by
  rcases isBlank_iff.1 h with rfl | rfl <;> decide

namespace Text

/-- The blanks behind a line are behind its body, unless it has none. -/
theorem body_blanks_end (h : Blanks ws) (t : Text) :
    (body t = [] ∧ body (t ++ ws) = []) ∨ (body t ≠ [] ∧ body (t ++ ws) = body t ++ ws) := by
  unfold body
  rw [List.dropWhile_append]
  by_cases hbody : t.dropWhile isBlank = []
  · refine .inl ⟨hbody, ?_⟩
    rw [if_pos (by simp [hbody])]
    exact List.dropWhile_eq_nil_iff.2 h
  · exact .inr ⟨hbody, if_neg (by simpa using hbody)⟩

end Text

namespace Line

theorem trim_of_body {c : Char} {rest : Text} (hbody : line.body = c :: rest)
    (hc : isWhite c = false) : line.trim = Text.trimEnd (c :: rest) := by
  rw [← line.blanks_append_body, Text.trim_blanks line.blanks_blanks, hbody, Text.trim, Text.trimStart,
    List.dropWhile_cons_of_neg (by simp [hc])]

theorem isElement_blanks_end (h : Blanks ws) (t : Text) : isElement (t ++ ws) = isElement t := by
  obtain ⟨hnil, hboth⟩ | ⟨-, hbody⟩ := Text.body_blanks_end h t
  · rw [isElement, isElement, hnil, hboth]
  · have hends : ∀ c ∈ ws, ¬(!endsElement c) = true := fun c hc => by
      simp [endsElement_of_isBlank (h c hc)]
    have hsame : (t.body ++ ws).takeWhile (fun c => !endsElement c) =
        t.body.takeWhile fun c => !endsElement c := by
      rw [List.takeWhile_append]
      split
      · rename_i hall
        have hnone : ws.takeWhile (fun c => !endsElement c) = [] :=
          List.eq_nil_iff_forall_not_mem.2 fun c hc =>
            hends c (List.takeWhile_subset _ hc)
              (List.mem_takeWhile_imp (p := fun c => !endsElement c) hc)
        rw [(List.takeWhile_prefix _).eq_of_length hall, hnone, List.append_nil]
      · rfl
    rw [isElement, isElement, hbody, hsame]

theorem hasSelectorSigil_blanks_end (h : Blanks ws) (hplus : t.body ≠ ['+']) :
    hasSelectorSigil (t ++ ws) = hasSelectorSigil t := by
  obtain ⟨hnil, hboth⟩ | ⟨hne, hbody⟩ := Text.body_blanks_end h t
  · rw [hasSelectorSigil, hasSelectorSigil, hnil, hboth]
  · rw [hasSelectorSigil, hasSelectorSigil, hbody]
    -- the blank behind a sigil is seen behind a lone `+` only
    match hb : t.body, hne, hplus with
    | [c], _, hplus =>
      have hc : c ≠ '+' := fun hc => hplus (by rw [hc])
      cases ws <;> simp [hc]
    | c :: d :: rest, _, _ => by_cases hc : c = '+' <;> simp [hc]

/-- The blanks behind a line do not tell its kind. -/
theorem kindOutsideComment_blanks_end (h : Blanks ws) (hplus : t.body ≠ ['+']) :
    kindOutsideComment (t ++ ws) = kindOutsideComment t := by
  have hw := h.white
  have htrait : ∀ f : Traits → Bool, f (traits (t ++ ws)) = f (traits t) :=
    fun f => congrArg f (traits_white hw t)
  have hblank : isBlankLine (t ++ ws) = isBlankLine t := htrait Traits.isBlankLine
  have hcomment : isLineComment (t ++ ws) = isLineComment t := htrait Traits.isLineComment
  have hopens : opensBlockComment (t ++ ws) = opensBlockComment t := htrait Traits.opensBlockComment
  have hvariable : isVariable (t ++ ws) = isVariable t := htrait Traits.isVariable
  have hproperty : isProperty (t ++ ws) = isProperty t := htrait Traits.isProperty
  have huse : isUse (t ++ ws) = isUse t := hasAtRule_white (by decide) hw t
  have himport : isImport (t ++ ws) = isImport t := hasAtRule_white (by decide) hw t
  have hmixin : isMixin (t ++ ws) = isMixin t := htrait Traits.isMixin
  have hinclude : isInclude (t ++ ws) = isInclude t := htrait Traits.isInclude
  have hextend : isExtend (t ++ ws) = isExtend t := htrait Traits.isExtend
  have hface : isFontFace (t ++ ws) = isFontFace t := hasAtRule_white (by decide) hw t
  have hat : isAtRule (t ++ ws) = isAtRule t := htrait Traits.isAtRule
  have hselector : isSelector (t ++ ws) = isSelector t := by
    rw [isSelector, isSelector, hasSelectorSigil_blanks_end h hplus, isElement_blanks_end h,
      isKeyframePoint_white hw, hat]
  unfold kindOutsideComment
  rw [hblank, hcomment, hopens, hvariable, hproperty, huse, himport, hmixin, hinclude, hextend, hface,
    hselector]

/-- Two lines that differ in the blanks around them only. -/
def SameInside (line line' : Text) : Prop :=
  ∃ core pre post pre' post', Blanks pre ∧ Blanks post ∧ Blanks pre' ∧ Blanks post' ∧
    line = pre ++ core ++ post ∧ line' = pre' ++ core ++ post'

theorem kindOutsideComment_around {core post : Text} (hpre : Blanks pre) (hpost : Blanks post)
    (hplus : (pre ++ core ++ post).trim ≠ ['+']) :
    kindOutsideComment (pre ++ core ++ post) = kindOutsideComment core := by
  have hbody : core.body ≠ ['+'] := fun hbody => hplus <| by
    rw [Text.trim_white hpost.white, Text.trim_blanks hpre, trim_of_body hbody (by decide)]
    rfl
  rw [List.append_assoc, kindOutsideComment_blanks hpre, kindOutsideComment_blanks_end hpost hbody]

/-- The blanks around a line do not tell its kind. -/
theorem SameInside.kind_eq {line' : Text} (h : SameInside line line') (hplus : line.trim ≠ ['+']) :
    kindOutsideComment line' = kindOutsideComment line := by
  obtain ⟨core, pre, post, pre', post', hpre, hpost, hpre', hpost', rfl, rfl⟩ := h
  have htrim : (pre' ++ core ++ post').trim = (pre ++ core ++ post).trim := by
    rw [Text.trim_white hpost'.white, Text.trim_white hpost.white, Text.trim_blanks hpre',
      Text.trim_blanks hpre]
  rw [kindOutsideComment_around hpre hpost hplus,
    kindOutsideComment_around hpre' hpost' (by rwa [htrim])]

/-! ## Names -/

/-- A name of word characters and hyphens. -/
def IsName (name : Text) : Prop := name ≠ [] ∧ ∀ c ∈ name, isNameChar c = true

/-- A name behind `$` or `--`. -/
def IsVariableName (name : Text) : Prop :=
  ∃ rest, IsName rest ∧ (name = '$' :: rest ∨ name = '-' :: '-' :: rest)

/-- A line is a name under its indentation, perhaps blanks, a colon and a value, which begins
    at a column. -/
def NamedAt (line name value : Text) (column : Nat) : Prop :=
  ∃ gap, Blanks gap ∧ line = line.blanks ++ name ++ gap ++ ':' :: value ∧
    column = (line.blanks ++ name ++ gap ++ [':']).length

/-- What a pattern of declarations finds is a name before a colon. -/
theorem nameAndColon?_parts (h : nameAndColon? t = some (name, value)) :
    IsName name ∧ ∃ gap, Blanks gap ∧ t = name ++ gap ++ ':' :: value := by
  unfold nameAndColon? at h
  split at h
  · rename_i c name' value' hname hcolon
    cases h
    refine ⟨⟨List.cons_ne_nil _ _, fun d hd => ?_⟩, Text.blanks (t.dropWhile isNameChar),
      Text.blanks_blanks _, ?_⟩
    · rw [← hname] at hd
      exact List.mem_takeWhile_imp hd
    · rw [← hname, ← hcolon, List.append_assoc, Text.blanks_append_body,
        List.takeWhile_append_dropWhile]
  · cases h

theorem namedAt_of_body {gap : Text} (hgap : Blanks gap) (hbody : line.body = name ++ gap ++ ':' :: value) :
    ∃ column, NamedAt line name value column := by
  refine ⟨_, gap, hgap, ?_, rfl⟩
  conv_lhs => rw [← line.blanks_append_body, hbody]
  simp only [List.append_assoc]

theorem namedAt_of_plainName (h : plainName? line = some (name, value)) :
    IsName name ∧ ∃ column, NamedAt line name value column := by
  obtain ⟨hname, gap, hgap, hbody⟩ := nameAndColon?_parts h
  exact ⟨hname, namedAt_of_body hgap hbody⟩

theorem namedAt_of_variableName (h : variableName? line = some (name, value)) :
    IsVariableName name ∧ ∃ column, NamedAt line name value column := by
  unfold variableName? at h
  split at h
  · rename_i rest hline
    obtain ⟨⟨own, _⟩, hown, h⟩ := Option.map_eq_some_iff.1 h
    cases h
    obtain ⟨hname, gap, hgap, rfl⟩ := nameAndColon?_parts hown
    exact ⟨⟨own, hname, .inl rfl⟩, namedAt_of_body hgap hline⟩
  · rename_i rest hline
    obtain ⟨⟨own, _⟩, hown, h⟩ := Option.map_eq_some_iff.1 h
    cases h
    obtain ⟨hname, gap, hgap, rfl⟩ := nameAndColon?_parts hown
    exact ⟨⟨own, hname, .inr rfl⟩, namedAt_of_body hgap hline⟩
  · cases h

/-! ## The colon of a declaration -/

theorem IsName.isNamePart (h : IsName name) : ∀ c ∈ name, isNamePart c = true :=
  fun c hc => Bool.or_eq_true_iff.2 (.inr (h.2 c hc))

theorem IsVariableName.isNamePart (h : IsVariableName name) : ∀ c ∈ name, isNamePart c = true := by
  obtain ⟨rest, hrest, rfl | rfl⟩ := h
  · exact List.forall_mem_cons.2 ⟨by decide, hrest.isNamePart⟩
  · exact List.forall_mem_cons.2 ⟨by decide, List.forall_mem_cons.2 ⟨by decide, hrest.isNamePart⟩⟩

theorem isPlain_of_isNamePart {c : Char} (h : isNamePart c = true) : isPlain c = true := by
  rcases Bool.or_eq_true_iff.1 h with hdollar | hname
  · rw [beq_iff_eq.1 hdollar]
    decide
  · exact isPlain_of_isNameChar hname

theorem isWhite_of_isNamePart {c : Char} (h : isNamePart c = true) : isWhite c = false := by
  refine Bool.eq_false_iff.2 fun hc => ?_
  rw [isNamePart_of_isWhite hc] at h
  cases h

/-- The line is cut at the colon behind its name. -/
theorem NamedAt.splitDeclaration?_eq {column : Nat} (h : NamedAt line name value column)
    (hname : ∀ c ∈ name, isNamePart c = true) :
    splitDeclaration? line = some ⟨name, value, column⟩ := by
  obtain ⟨gap, hgap, hline, rfl⟩ := h
  have hplain : ∀ c ∈ line.blanks ++ name ++ gap, isPlain c = true := by
    intro c hc
    rcases List.mem_append.1 hc with hc | hc
    · rcases List.mem_append.1 hc with hc | hc
      · exact isPlain_of_isBlank (line.blanks_blanks c hc)
      · exact isPlain_of_isNamePart (hname c hc)
    · exact isPlain_of_isBlank (hgap c hc)
  have htrim : (line.blanks ++ name ++ gap).trim = name := by
    rw [Text.trim_white hgap.white, Text.trim_blanks line.blanks_blanks]
    exact Text.trim_eq_self
      (fun c hc => isWhite_of_isNamePart (hname c (List.mem_of_mem_head? hc)))
      (fun c hc => isWhite_of_isNamePart (hname c (List.mem_of_mem_getLast? hc)))
  conv_lhs => rw [hline]
  rw [splitDeclaration?_plain hplain, htrim, @List.length_append Char _ [':']]
  rfl

/-- What the pattern of the declarations of a kind finds: the name and the value. -/
def declared? : LineKind → Text → Option (Text × Text)
  | .property, line => plainName? line
  | .variableDecl, line => variableName? line
  | _, _ => none

/-- The names of the declarations of a kind. -/
def Names : LineKind → Text → Prop
  | .property, name => IsName name ∧ ¬['-', '-'] <+: name
  | .variableDecl, name => IsVariableName name
  | _, _ => False

/-- A line is cut into a declaration as the pattern of its kind tells. -/
structure CutAs (line : Text) (kind : LineKind) (d : Declaration) : Prop where
  split : splitDeclaration? line = some d
  found : declared? kind line = some (d.name, d.value)
  name : Names kind d.name
  visible : ∀ c ∈ d.name, isWhite c = false
  placed : NamedAt line d.name d.value d.column

/-- A line that is told to be a declaration can be cut. -/
theorem exists_cutAs {kind : LineKind} (hkind : kind = .property ∨ kind = .variableDecl)
    (h : kindOutsideComment line = kind) : ∃ d, CutAs line kind d := by
  have hpassed := passed_kind line
  rw [h] at hpassed
  rcases hkind with rfl | rfl
  · have hproperty := hpassed.2
    unfold isProperty at hproperty
    split at hproperty
    · rename_i name value hfound
      obtain ⟨hdashes, -⟩ := Bool.and_eq_true_iff.1 hproperty
      obtain ⟨hname, column, hat⟩ := namedAt_of_plainName hfound
      refine ⟨⟨name, value, column⟩, hat.splitDeclaration?_eq hname.isNamePart, hfound, ⟨hname, ?_⟩,
        fun c hc => isWhite_of_isNamePart (hname.isNamePart c hc), hat⟩
      rintro ⟨rest, rfl⟩
      cases hdashes
    · cases hproperty
  · obtain ⟨⟨name, value⟩, hfound⟩ := Option.isSome_iff_exists.1 (show isVariable line = true from hpassed)
    obtain ⟨hname, column, hat⟩ := namedAt_of_variableName hfound
    exact ⟨⟨name, value, column⟩, hat.splitDeclaration?_eq hname.isNamePart, hfound, hname,
      fun c hc => isWhite_of_isNamePart (hname.isNamePart c hc), hat⟩

end Line

end IndentedSass
