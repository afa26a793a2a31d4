/-
  Rules, comments and declarations that are read back.

  A line that is something known starts with a visible character behind its indentation, and the
  white space at its ends does not change its kind; only a lone `+` needs the blank behind it.
  So rules and comments, which are written without that white space, are read back.  A declaration
  is written with its name, a colon and its value spaced anew, and is told by its name alone.

  * `Line.kind_trim`: the kind of a trimmed line;
  * `Line.tells_rule`, `tells_comment`, `tells_variable`, `tells_property`, …: the texts of the nodes
    that a line makes are read as these nodes;
  * `Line.IsUnknown`: the texts that are read as nothing known.
-/
import Mathlib
import IndentedSass.Proofs.Line.Spacing
import IndentedSass.Proofs.Reader.Legible

namespace IndentedSass

namespace Line

variable {level : Nat} {line name v : Text}

/-! ## What a kind tells -/

/-- A line that starts with white space that is no indentation is nothing known. -/
theorem kind_of_white_head {c : Char} {rest : Text} (hbody : line.body = c :: rest)
    (hc : isWhite c = true) (hvisible : isBlankLine line = false) :
    kindOutsideComment line = .literal := by
  have hne : ∀ {a : Char}, isWhite a = false → c ≠ a := fun ha => (ne_of_isWhite ha hc).symm
  have hname := isNameChar_of_isWhite hc
  have hrule : ∀ words, hasAtRule words line = false := by
    intro words
    rw [hasAtRule, hbody]
    simp [hne (show isWhite '@' = false by decide)]
  have hhead : ∀ {p : Char → Bool}, p c = false → headIs p line = false := by
    intro p hp
    rw [headIs, hbody]
    exact hp
  have hplain : plainName? line = none := by
    rw [plainName?, hbody, nameAndColon?, List.takeWhile_cons_of_neg (by simp [hname])]
  have hvariable : variableName? line = none := by
    rw [variableName?, hbody]
    simp [hne (show isWhite '$' = false by decide), hne (show isWhite '-' = false by decide)]
  have hslash : ∀ d : Char, line.body.startsWith ['/', d] = false := by
    intro d
    rw [hbody]
    simp [Text.startsWith, Text.dropPrefix?, Ne.symm (hne (show isWhite '/' = false by decide))]
  have hword : ∀ {a : Char} {w : Text}, isWhite a = false →
      Text.dropPrefix? (a :: w) line.body = none := by
    intro a w ha
    rw [hbody, Text.dropPrefix?, if_neg (Ne.symm (hne ha))]
  have hsigil : hasSelectorSigil line = false := by
    have hall := false_of_isWhite (p := ".#%&[*:>~".toList.contains) (by decide) hc
    rw [hasSelectorSigil, hbody]
    split
    · rename_i heq
      cases heq
      exact absurd rfl (hne (show isWhite '+' = false by decide))
    · rename_i heq
      cases heq
      exact hall
    · rfl
  have helement : isElement line = false := by
    refine Bool.eq_false_iff.2 fun h => ?_
    rw [isElement, hbody, List.takeWhile_cons] at h
    split at h
    · have hvisible := isWhite_of_mem_elementName h c (List.mem_cons_self ..)
      rw [hc] at hvisible
      cases hvisible
    · exact absurd h (by decide)
  have hpoint : isKeyframePoint line = false := by
    have hpercent : startsWithPercentage line.body = false := by
      rw [startsWithPercentage, hbody, List.takeWhile_cons_of_neg (by simp [isDigit_of_isWhite hc])]
    have hfrom : hasKeyword "from" line = false := by
      rw [hasKeyword, startsWithWord, show "from".toList = 'f' :: "rom".toList from rfl,
        hword (by decide)]
    have hto : hasKeyword "to" line = false := by
      rw [hasKeyword, startsWithWord, show "to".toList = 't' :: "o".toList from rfl, hword (by decide)]
    rw [isKeyframePoint, hpercent, hfrom, hto]
    rfl
  have hinclude : isInclude line = false := by
    rw [isInclude, hrule, hbody]
    simp [hne (show isWhite '+' = false by decide)]
  have hmixin : isMixin line = false := by
    rw [isMixin, hrule, hhead (by simpa using hne (show isWhite '=' = false by decide))]
    rfl
  have hat : isAtRule line = false := hhead (by simpa using hne (show isWhite '@' = false by decide))
  unfold kindOutsideComment
  simp only [hvisible, isLineComment, opensBlockComment, hslash, isVariable, hvariable, isProperty,
    hplain, isUse, isImport, hmixin, hinclude, isExtend, isFontFace, hrule, isSelector, hsigil,
    helement, hpoint, hat]
  rfl

/-- Lines that are something known start with a visible character behind their indentation. -/
theorem startsVisibly_of_kind {kind : LineKind} (h : kindOutsideComment line = kind)
    (hblank : kind ≠ .blank) (hknown : kind ≠ .literal) : StartsVisibly line := by
  have hvisible := isBlankLine_of_kind h hblank
  cases hbody : line.body with
  | nil =>
    have hwhite : isBlankLine line = true := by
      rw [isBlankLine, Text.isAllWhite, ← line.blanks_append_body, Text.trim_blanks line.blanks_blanks,
        hbody]
      rfl
    rw [hwhite] at hvisible
    cases hvisible
  | cons c rest =>
    refine ⟨c, rest, hbody, Bool.eq_false_iff.2 fun hc => hknown ?_⟩
    rw [← h]
    exact kind_of_white_head hbody hc hvisible

/-- The white space at the ends of a line does not change its kind, unless it is nothing known, or
    becomes so. -/
theorem kind_trim {kind : LineKind} (h : kindOutsideComment line = kind) (hblank : kind ≠ .blank)
    (hknown : kind ≠ .literal) (hplus : line.trim ≠ ['+']) : kindOutsideComment line.trim = kind := by
  obtain ⟨c, rest, hbody, hc⟩ := startsVisibly_of_kind h hblank hknown
  obtain ⟨ws, hw, hsplit⟩ := Text.exists_white line.body
  rw [hbody] at hsplit
  have htrim := trim_of_body hbody hc
  have hstart : line.trim.body = line.trim := by
    cases ht : line.trim with
    | nil => rfl
    | cons d more => exact List.dropWhile_cons_of_neg (by simp [isBlank_head_trim ht])
  have hline : kindOutsideComment (line.trim ++ ws) = kind := by
    rw [htrim, ← hsplit, ← hbody, ← kindOutsideComment_blanks line.blanks_blanks,
      line.blanks_append_body, h]
  rw [← hline]
  exact (kindOutsideComment_white hw (by rwa [hstart]) (by rwa [hline])).symm

/-! ## Selectors, comments and what is not known -/

/-- A selector is written as it was. -/
theorem tells_rule (hfeed : '\n' ∉ line) (h : kindOutsideComment line = .selector)
    (hplus : line.trim ≠ ['+']) : Tells level line.trim (.block 0 level (.rule line.trim) []) := by
  refine tells_trim hfeed (isBlankLine_of_kind h (by decide)) ?_
  rw [kind_trim h (by decide) (by decide) hplus]
  simp only [nodes, trim_trim]

theorem tells_fontFace : Tells level "@font-face".toList (.block 0 level .fontFace []) where
  feed := by decide
  plainEnd := by decide
  visible := ⟨'@', _, rfl, by decide⟩
  nodes := rfl

/-- A line that begins with a slash is not trimmed to a plus sign. -/
theorem trim_ne_plus {rest : Text} (h : line.body = '/' :: rest) : line.trim ≠ ['+'] := by
  obtain ⟨ws, -, hsplit⟩ := Text.exists_white ('/' :: rest)
  rw [trim_of_body h (by decide)]
  intro hplus
  rw [hplus] at hsplit
  cases hsplit

/-- A comment is written as it was. -/
theorem tells_comment (hfeed : '\n' ∉ line) (h : kindOutsideComment line = .comment) :
    Tells level line.trim (.leaf 0 (.comment level line.trim)) := by
  have hcomment : isLineComment line = true := by
    have hpassed := passed_kind line
    rwa [h] at hpassed
  obtain ⟨rest, hbody⟩ := body_of_isComment (t := line) (by rw [isComment, hcomment]; rfl)
  refine tells_trim hfeed (isBlankLine_of_kind h (by decide)) ?_
  rw [kind_trim h (by decide) (by decide) (trim_ne_plus hbody)]
  simp only [nodes, trim_trim]

/-- The beginning of a block comment stays one when it is trimmed. -/
theorem kind_trim_start (h : kindOutsideComment line = .blockCommentStart) :
    kindOutsideComment line.trim = .blockCommentStart := by
  have hopens : opensBlockComment line = true := by
    have hpassed := passed_kind line
    rwa [h] at hpassed
  obtain ⟨rest, hbody⟩ := body_of_isComment (t := line) (by rw [isComment, hopens, Bool.or_true])
  exact kind_trim h (by decide) (by decide) (trim_ne_plus hbody)

/-- A block comment begins as it did. -/
theorem tells_blockComment (hfeed : '\n' ∉ line) (h : kindOutsideComment line = .blockCommentStart) :
    Tells level line.trim (.leaf 0 (.blockComment level [⟨0, line.trim⟩])) := by
  refine tells_trim hfeed (isBlankLine_of_kind h (by decide)) ?_
  rw [kind_trim_start h]
  simp only [nodes, trim_trim]

/-- A text behind two slashes is a comment. -/
theorem tells_slashes {t : Text} (ht : t.trim = t) (hne : t ≠ []) (hfeed : '\n' ∉ t) :
    Tells level ("// ".toList ++ t) (.leaf 0 (.comment level ("// ".toList ++ t))) where
  feed h := by
    rcases List.mem_append.1 h with hkey | hown
    · revert hkey
      decide
    · exact hfeed hown
  plainEnd := getLast?_behind (k := "//".toList) ht
  visible := ⟨'/', _, rfl, by decide⟩
  nodes := by
    have hvisible : isBlankLine ("// ".toList ++ t) = false := by
      refine Bool.eq_false_iff.2 fun h => ?_
      have hwhite := white_of_isBlankLine h '/' (by simp)
      revert hwhite
      decide
    have hkind : kindOutsideComment ("// ".toList ++ t) = .comment := by
      unfold kindOutsideComment
      rw [hvisible]
      rfl
    have htrim : Text.trim ("// ".toList ++ t) = "// ".toList ++ t := by
      refine Text.trim_eq_self (fun c hc => ?_) fun c hc => ?_
      · cases hc
        decide
      · rw [List.getLast?_append_of_ne_nil _ hne, ← ht] at hc
        exact Text.getLast?_trimEnd _ c hc
    rw [hkind]
    simp only [nodes]
    rw [htrim]

/-- A text that cannot be understood. -/
def IsUnknown (text : Text) : Prop :=
  kindOutsideComment text = .literal ∨
    kindOutsideComment text = .importPaths ∧
      (importPaths? text = none ∨ importPaths? text = some []) ∨
    kindOutsideComment text = .useModule ∧ UseClause.ofLine? text = none

instance (text : Text) : Decidable (IsUnknown text) := inferInstanceAs (Decidable (_ ∨ _))

/-- What cannot be understood is written as it was. -/
theorem tells_unclassified (hfeed : '\n' ∉ line) (hvisible : isBlankLine line = false)
    (h : IsUnknown line.trim) : Tells level line.trim (.leaf 0 (.unclassified level line.trim)) := by
  refine tells_trim hfeed hvisible ?_
  rcases h with hkind | ⟨hkind, h | h⟩ | ⟨hkind, h⟩ <;> rw [hkind] <;>
    simp only [nodes, trim_trim, *]

end Line
/-- Only a space can stand between the colon and the first part. -/
theorem head?_render_valueParts (raw : Text) :
    ∀ c ∈ (Value.render (valueParts raw)).head?, c = ' ' := by
  rw [valueParts, Value.shape, Value.render_retarget]
  have hreadable := readable_readValue (fun _ _ _ _ => none) ⟨0, 0, 0⟩ raw
  cases hvs : (readValue (fun _ _ _ _ => none) ⟨0, 0, 0⟩ raw).1 with
  | nil =>
    intro c hc
    cases hc
  | cons v vs =>
    rw [hvs] at hreadable
    obtain ⟨hj, -⟩ := ValueState.dropSpace_render hreadable
    intro c hc
    rw [Value.render, Value.renderOne_eq, hj] at hc
    exact (Option.some.inj hc).symm

namespace Line

variable {level : Nat} {line name v : Text}

section Declared

/-! ## Declarations -/

/-- The name of a declaration, as it is written. -/
structure DeclaredName (line name value : Text) : Prop where
  nonempty : name ≠ []
  chars : ∀ c ∈ name, isNamePart c = true
  /-- It is what stands before the colon. -/
  split : ∃ column, splitDeclaration? line = some ⟨name, value, column⟩

/-- A name, blanks, a colon and a value are a declaration of the name. -/
theorem declaredName_of_body {blanks value : Text} (hbody : line.body = name ++ blanks ++ ':' :: value)
    (hne : name ≠ []) (hchars : ∀ c ∈ name, isNamePart c = true) (hblanks : Blanks blanks) :
    DeclaredName line name value := by
  obtain ⟨column, hat⟩ := namedAt_of_body hblanks hbody
  exact ⟨hne, hchars, column, hat.splitDeclaration?_eq hchars⟩

theorem isNamePart_of_isNameChar {c : Char} (h : isNameChar c = true) : isNamePart c = true :=
  Bool.or_eq_true_iff.2 (.inr h)

/-- A variable is declared by its sigil and name, whatever its value. -/
theorem declaredName_of_isVariable (h : isVariable line = true) :
    ∃ name value, DeclaredName line name value ∧ ∀ v, isVariable (name ++ ':' :: v) = true := by
  have hsigil : ∀ (sigil rest : Text), sigil ≠ [] → (∀ c ∈ sigil, isNamePart c = true) →
      line.body = sigil ++ rest → (nameAndColon? rest).isSome = true →
      (∀ n v, n ≠ [] → (∀ c ∈ n, isNameChar c = true) →
        isVariable (sigil ++ n ++ ':' :: v) = true) →
      ∃ name value, DeclaredName line name value ∧ ∀ v, isVariable (name ++ ':' :: v) = true := by
    intro sigil rest hne hchars hbody hsome hkeeps
    obtain ⟨⟨n, value⟩, hn⟩ := Option.isSome_iff_exists.1 hsome
    obtain ⟨⟨hnonempty, hname⟩, blanks, hblanks, rfl⟩ := nameAndColon?_parts hn
    refine ⟨sigil ++ n, value, declaredName_of_body (by rw [hbody]; simp) (by simp [hne])
      (fun c hc => ?_) hblanks, fun v => hkeeps n v hnonempty hname⟩
    rcases List.mem_append.1 hc with hc | hc
    · exact hchars c hc
    · exact isNamePart_of_isNameChar (hname c hc)
  have hcolon : ∀ n v, n ≠ [] → (∀ c ∈ n, isNameChar c = true) →
      nameAndColon? (n ++ ':' :: v) = some (n, v) := by
    intro n v hne hname
    rw [nameAndColon?_colon n v fun c hc => isNamePart_of_isNameChar (hname c hc),
      if_pos ⟨hne, List.dropWhile_eq_nil_iff.2 hname⟩]
  unfold isVariable variableName? at h
  split at h
  · rename_i rest hbody
    refine hsigil ['$'] rest (by simp) (by simp [isNamePart]) hbody (by simpa using h) fun n v hne hname => ?_
    rw [isVariable, variableName?, List.singleton_append, List.cons_append,
      show Text.body ('$' :: (n ++ ':' :: v)) = '$' :: (n ++ ':' :: v) from rfl]
    simp only [hcolon n v hne hname]
    rfl
  · rename_i rest hbody
    refine hsigil ['-', '-'] rest (by simp) (by simp [isNamePart, isNameChar]) hbody (by simpa using h)
      fun n v hne hname => ?_
    rw [isVariable, variableName?,
      show ['-', '-'] ++ n ++ ':' :: v = '-' :: '-' :: (n ++ ':' :: v) from rfl,
      show Text.body ('-' :: '-' :: (n ++ ':' :: v)) = '-' :: '-' :: (n ++ ':' :: v) from rfl]
    simp only [hcolon n v hne hname]
    rfl
  · cases h

/-- Whether a declaration is a property is told by its name when a space or nothing follows the
    colon. -/
theorem isProperty_named (hne : name ≠ []) (hchars : ∀ c ∈ name, isNameChar c = true)
    (hhyphens : Text.startsWith name ['-', '-'] = false) (hv : ∀ c ∈ v.head?, c = ' ') :
    isProperty (name ++ ':' :: v) = true := by
  have hpart : ∀ c ∈ name, isNamePart c = true := fun c hc => isNamePart_of_isNameChar (hchars c hc)
  have hpseudo : isElementWithPseudo name v = false := by
    have hnone : isPseudoName [] = false := by decide
    have htake : v.takeWhile (fun c => c.isAlphanum || c == '-') = [] := by
      cases v with
      | nil => rfl
      | cons c v =>
        obtain rfl := hv c rfl
        exact List.takeWhile_cons_of_neg (by decide)
    unfold isElementWithPseudo
    split
    · exact absurd (hv ':' rfl) (by decide)
    · rw [htake, hnone, Bool.and_false]
  rw [isProperty, plainName?, body_named hne hpart, nameAndColon?_colon name v hpart,
    if_pos ⟨hne, List.dropWhile_eq_nil_iff.2 hchars⟩]
  simp only [hhyphens, hpseudo]
  rfl

/-- A property is declared by its name, when a space or nothing follows the colon. -/
theorem declaredName_of_isProperty (h : isProperty line = true) :
    ∃ name value, DeclaredName line name value ∧ (∀ v, isVariable (name ++ ':' :: v) = false) ∧
      ∀ v, (∀ c ∈ v.head?, c = ' ') → isProperty (name ++ ':' :: v) = true := by
  unfold isProperty plainName? at h
  cases hfound : nameAndColon? line.body with
  | none =>
    rw [hfound] at h
    cases h
  | some found =>
    obtain ⟨name, value⟩ := found
    rw [hfound] at h
    simp only [Bool.and_eq_true, Bool.not_eq_true'] at h
    obtain ⟨⟨hne, hname⟩, blanks, hblanks, hbody⟩ := nameAndColon?_parts hfound
    have hpart : ∀ c ∈ name, isNamePart c = true := fun c hc => isNamePart_of_isNameChar (hname c hc)
    refine ⟨name, value, declaredName_of_body hbody hne hpart hblanks, fun v => ?_,
      fun v hv => isProperty_named hne hname h.1 hv⟩
    obtain ⟨a, n, rfl⟩ := List.exists_cons_of_ne_nil hne
    have hdollar : a ≠ '$' := by
      rintro rfl
      exact absurd (hname '$' (List.mem_cons_self ..)) (by decide)
    rw [isVariable, variableName?, body_named hne hpart]
    by_cases hhyphen : a = '-'
    · subst hhyphen
      cases n with
      | nil => rfl
      | cons b n =>
        have hb : b ≠ '-' := by
          rintro rfl
          simp [Text.startsWith, Text.dropPrefix?] at h
        simp [hb]
    · simp [hdollar, hhyphen]

/-- A text that begins with a name and a colon is a variable or a property, if it looks like one. -/
theorem kind_of_named (hne : name ≠ []) (hchars : ∀ c ∈ name, isNamePart c = true) (v : Text) :
    (isVariable (name ++ ':' :: v) = true →
        kindOutsideComment (name ++ ':' :: v) = .variableDecl) ∧
      (isVariable (name ++ ':' :: v) = false → isProperty (name ++ ':' :: v) = true →
        kindOutsideComment (name ++ ':' :: v) = .property) := by
  obtain ⟨a, n, rfl⟩ := List.exists_cons_of_ne_nil hne
  have ha := hchars a (List.mem_cons_self ..)
  obtain ⟨hblank, hcomment, hopens⟩ := kind_of_head (isWhite_of_isNamePart ha)
    (ne_of_isNamePart (by decide) ha) (n ++ ':' :: v)
  rw [← List.cons_append] at hblank hcomment hopens
  generalize a :: n ++ ':' :: v = text at hblank hcomment hopens
  constructor
  · intro hvariable
    simp [kindOutsideComment, hblank, hcomment, hopens, hvariable]
  · intro hvariable hproperty
    simp [kindOutsideComment, hblank, hcomment, hopens, hvariable, hproperty]

/-- What a declaration is written as. -/
theorem DeclaredName.tells {value : Text} {kind : LineKind} {node : Node}
    (h : DeclaredName line name value) (hfeed : '\n' ∉ line)
    (hplain : (Value.render (valueParts value)).getLast? ≠ some '\r')
    (hkind : kindOutsideComment (name ++ ':' :: Value.render (valueParts value)) = kind)
    (hnodes : ∀ t column, splitDeclaration? t = some ⟨name, Value.render (valueParts value), column⟩ →
      nodes level t kind = [node]) :
    Tells level (name ++ ':' :: Value.render (valueParts value)) node where
  feed hmem := by
    obtain ⟨column, hsplit⟩ := h.split
    rcases List.mem_append.1 hmem with hown | hrest
    · exact absurd (h.chars _ hown) (by decide)
    · rcases List.mem_cons.1 hrest with hcolon | hrest
      · revert hcolon
        decide
      · refine feed_render_valueParts (fun hraw => hfeed ?_) hrest
        obtain ⟨⟨before, after⟩, hcolon, heq⟩ := Option.map_eq_some_iff.1 hsplit
        cases heq
        rw [splitColon?_eq_some hcolon]
        exact List.mem_append_right _ (List.mem_cons_of_mem _ hraw)
  plainEnd := by
    rw [List.getLast?_append_of_ne_nil _ (by simp)]
    cases hr : Value.render (valueParts value) with
    | nil => decide
    | cons c rest => rwa [List.getLast?_cons_cons, ← hr]
  visible := by
    obtain ⟨a, n, rfl⟩ := List.exists_cons_of_ne_nil h.nonempty
    refine ⟨a, _, rfl, Bool.eq_false_iff.2 fun hblank => ?_⟩
    have hwhite := isWhite_of_isNamePart (h.chars a (List.mem_cons_self ..))
    rw [isWhite_of_isBlank hblank] at hwhite
    cases hwhite
  nodes := by
    have hsplit := splitDeclaration?_plain (fun c hc => isPlain_of_isNamePart (h.chars c hc))
      (Value.render (valueParts value))
    have htrim : Text.trim name = name :=
      Text.trim_eq_self (fun c hc => isWhite_of_isNamePart (h.chars c (List.mem_of_mem_head? hc)))
        fun c hc => isWhite_of_isNamePart (h.chars c (List.mem_of_getLast? hc))
    rw [htrim] at hsplit
    rw [hkind]
    exact hnodes _ _ hsplit

/-- A variable is read back. -/
theorem tells_variable {d : Declaration} (hfeed : '\n' ∉ line)
    (h : kindOutsideComment line = .variableDecl) (hd : splitDeclaration? line = some d)
    (hclosed : Value.Closed (valueParts d.value))
    (hplain : (Value.render (valueParts d.value)).getLast? ≠ some '\r') :
    Tells level (d.name ++ ':' :: Value.render (valueParts d.value))
      (.leaf 0 (.variableDecl level d.name (valueParts d.value))) := by
  have hpassed := passed_kind line
  rw [h] at hpassed
  obtain ⟨name, value, hname, hvariable⟩ := declaredName_of_isVariable hpassed
  obtain ⟨column, hsplit⟩ := hname.split
  rw [hd] at hsplit
  cases hsplit
  refine hname.tells hfeed hplain ((kind_of_named hname.nonempty hname.chars _).1 (hvariable _))
    fun t column ht => ?_
  simp only [nodes, ht, valueParts_render_valueParts hclosed]

/-- A property is read back. -/
theorem tells_property {d : Declaration} (hfeed : '\n' ∉ line)
    (h : kindOutsideComment line = .property) (hd : splitDeclaration? line = some d)
    (hclosed : Value.Closed (valueParts d.value))
    (hplain : (Value.render (valueParts d.value)).getLast? ≠ some '\r') :
    Tells level (d.name ++ ':' :: Value.render (valueParts d.value))
      (.leaf 0 (.property level d.name (valueParts d.value))) := by
  have hpassed := passed_kind line
  rw [h] at hpassed
  obtain ⟨name, value, hname, hvariable, hproperty⟩ := declaredName_of_isProperty hpassed.2
  obtain ⟨column, hsplit⟩ := hname.split
  rw [hd] at hsplit
  cases hsplit
  refine hname.tells hfeed hplain ((kind_of_named hname.nonempty hname.chars _).2 (hvariable _)
    (hproperty _ (head?_render_valueParts _))) fun t column ht => ?_
  simp only [nodes, ht, valueParts_render_valueParts hclosed]

end Declared

end Line

end IndentedSass
