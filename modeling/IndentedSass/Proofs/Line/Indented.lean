/-
  Lines under their indentation.

  What a line is and says does not depend on the blanks before it: `Blanks pre` are
  the texts of spaces and tabs only.

  * `Text.body_blanks`, `Text.trim_blanks`: the blanks disappear from what is left of
    a line;
  * `Line.kindOutsideComment_blanks`: the kind of a line, `Line.splitColon?_blanks`,
    `MixinClause.ofLine_blanks`: the parts of a declaration and of a mixin;
  * `Line.splitDeclaration?_isSome`: the lines that are told to be variables can be
    cut at their colon.
-/
import Mathlib
import IndentedSass.Reader.Clause
import IndentedSass.Proofs.Line.Kinds

namespace IndentedSass

/-- A text of spaces and tabs only. -/
def Blanks (pre : Text) : Prop := ∀ c ∈ pre, isBlank c = true

theorem Blanks.tail {c : Char} {pre : Text} (h : Blanks (c :: pre)) : Blanks pre :=
  fun d hd => h d (List.mem_cons_of_mem c hd)

theorem Blanks.head {c : Char} {pre : Text} (h : Blanks (c :: pre)) : isBlank c = true :=
  h c (List.mem_cons_self ..)

theorem isBlank_iff {c : Char} : isBlank c = true ↔ c = ' ' ∨ c = '\t' := by
  simp [isBlank]

namespace Text

variable {pre t : Text}

theorem blanks_blanks (t : Text) : Blanks (blanks t) := fun _ hc => List.mem_takeWhile_imp hc

theorem body_blanks (h : Blanks pre) (t : Text) : body (pre ++ t) = body t :=
  List.dropWhile_append_of_pos h

theorem trimStart_blanks (h : Blanks pre) (t : Text) : trimStart (pre ++ t) = trimStart t :=
  List.dropWhile_append_of_pos fun c hc => isWhite_of_isBlank (h c hc)

theorem trim_blanks (h : Blanks pre) (t : Text) : trim (pre ++ t) = trim t := by
  rw [trim, trimStart_blanks h, trim]

theorem after?_blanks {a : Char} {p : Text} (ha : isBlank a = false) (h : Blanks pre) (t : Text) :
    after? (pre ++ t) (a :: p) = after? t (a :: p) := by
  induction pre with
  | nil => rfl
  | cons c pre ih =>
    have hne : a ≠ c := by
      rintro rfl
      rw [h.head] at ha
      cases ha
    rw [List.cons_append, after?, dropPrefix?, if_neg hne]
    exact ih h.tail

/-- A text that was trimmed starts with no white space. -/
theorem head_trim {c : Char} {rest : Text} (h : trim t = c :: rest) : isWhite c = false := by
  have hstart : ∃ more, trimStart t = c :: more := by
    have hsplit := trimmed_append_end (trimStart t)
    rw [show trimEnd (trimStart t) = c :: rest from h, List.cons_append] at hsplit
    exact ⟨_, hsplit.symm⟩
  obtain ⟨more, hmore⟩ := hstart
  have hhead := List.head?_dropWhile_not isWhite t
  rw [show t.dropWhile isWhite = c :: more from hmore] at hhead
  simpa using hhead

end Text

namespace Line

variable {pre line : Text}

theorem isBlank_head_body {t rest : Text} {c : Char} (h : t.body = c :: rest) :
    isBlank c = false := by
  have hhead := List.head?_dropWhile_not isBlank t
  rw [show t.dropWhile isBlank = c :: rest from h] at hhead
  simpa using hhead

/-- The indentation is measured up to the first character that is no blank. -/
theorem width_congr {tab : Nat} {c : Char} (hc : isBlank c = false) (pre s t : Text) :
    Indent.width tab (pre ++ c :: s) = Indent.width tab (pre ++ c :: t) := by
  induction pre with
  | nil =>
    simp only [isBlank, Bool.or_eq_false_iff, beq_eq_false_iff_ne] at hc
    simp [Indent.width, hc.1, hc.2]
  | cons d pre ih => simp only [List.cons_append, Indent.width, ih]

/-- The kind of a line depends on what follows its indentation, and on whether there
    is anything but white space. -/
theorem kindOutsideComment_congr {l l' : Text} (hbody : l.body = l'.body)
    (hblank : isBlankLine l = isBlankLine l') : kindOutsideComment l = kindOutsideComment l' := by
  unfold kindOutsideComment isLineComment opensBlockComment isVariable variableName? isProperty
    plainName? isUse isImport isMixin isInclude isExtend isFontFace isSelector hasSelectorSigil
    isElement isKeyframePoint isAtRule hasAtRule headIs hasKeyword
  rw [hbody, hblank]

theorem isBlankLine_blanks (h : Blanks pre) (line : Text) :
    isBlankLine (pre ++ line) = isBlankLine line := by
  rw [isBlankLine, Text.isAllWhite, Text.trim_blanks h]
  rfl

theorem kindOutsideComment_blanks (h : Blanks pre) (line : Text) :
    kindOutsideComment (pre ++ line) = kindOutsideComment line :=
  kindOutsideComment_congr (Text.body_blanks h line) (isBlankLine_blanks h line)

theorem leavesCommentOpen_blanks (h : Blanks pre) (line : Text) :
    leavesCommentOpen (pre ++ line) = leavesCommentOpen line := by
  rw [leavesCommentOpen, Text.after?_blanks (by decide) h]
  rfl

/-- A character that neither opens a string nor escapes what follows it. -/
def isPlain (c : Char) : Bool := !isQuoteMark c && c != '\\' && c != ':'

theorem isPlain_of_isBlank {c : Char} (h : isBlank c = true) : isPlain c = true := by
  rcases isBlank_iff.1 h with rfl | rfl <;> decide

theorem isPlain_of_isNameChar {c : Char} (h : isNameChar c = true) : isPlain c = true := by
  by_contra hc
  have hcases : c = '"' ∨ c = '\'' ∨ c = '\\' ∨ c = ':' := by
    simp only [isPlain, isQuoteMark, Bool.and_eq_true, Bool.not_eq_true', bne_iff_ne] at hc
    by_contra hne
    simp_all
  rcases hcases with rfl | rfl | rfl | rfl <;> exact absurd h (by decide)

/-- Plain characters before the colon are skipped. -/
theorem splitColon?_plain {pre : Text} (h : ∀ c ∈ pre, isPlain c = true) (t : Text) :
    splitColon? .outside false (pre ++ t) =
      (splitColon? .outside false t).map fun (a, b) => (pre ++ a, b) := by
  induction pre with
  | nil => simp
  | cons c pre ih =>
    have hc : isPlain c = true := h c (List.mem_cons_self ..)
    simp only [isPlain, Bool.and_eq_true, Bool.not_eq_true', bne_iff_ne] at hc
    obtain ⟨⟨hquote, hslash⟩, hcolon⟩ := hc
    rw [List.cons_append, splitColon?]
    simp only [Quote.isOutside, Quote.step, hquote, beq_eq_false_iff_ne.2 hcolon,
      beq_eq_false_iff_ne.2 hslash, Bool.and_false, Bool.false_and, Bool.false_eq_true, if_false,
      ih fun d hd => h d (List.mem_cons_of_mem c hd), Option.map_map]
    rfl

theorem splitColon?_blanks (h : Blanks pre) (t : Text) :
    splitColon? .outside false (pre ++ t) =
      (splitColon? .outside false t).map fun (a, b) => (pre ++ a, b) :=
  splitColon?_plain (fun c hc => isPlain_of_isBlank (h c hc)) t

/-- The indentation of a declaration moves its value to the right. -/
theorem splitDeclaration?_blanks (h : Blanks pre) (t : Text) :
    splitDeclaration? (pre ++ t) =
      (splitDeclaration? t).map fun d => { d with column := pre.length + d.column } := by
  unfold splitDeclaration?
  rw [splitColon?_blanks h]
  cases splitColon? .outside false t with
  | none => rfl
  | some pair => simp [Text.trim_blanks h, Nat.add_assoc]

theorem nameAndColon?_eq {t name rest : Text} (h : nameAndColon? t = some (name, rest)) :
    ∃ pre, t = pre ++ ':' :: rest ∧ ∀ c ∈ pre, isPlain c = true := by
  unfold nameAndColon? at h
  split at h
  · rename_i c name' rest' hname hcolon
    cases h
    refine ⟨t.takeWhile isNameChar ++ (t.dropWhile isNameChar).takeWhile isBlank, ?_, ?_⟩
    · rw [List.append_assoc, ← hcolon]
      rw [show Text.body (t.dropWhile isNameChar) =
        (t.dropWhile isNameChar).dropWhile isBlank from rfl]
      rw [List.takeWhile_append_dropWhile, List.takeWhile_append_dropWhile]
    · intro d hd
      rcases List.mem_append.1 hd with hn | hb
      · exact isPlain_of_isNameChar (List.mem_takeWhile_imp hn)
      · exact isPlain_of_isBlank (List.mem_takeWhile_imp hb)
  · cases h

theorem splitDeclaration?_plain {pre : Text} (h : ∀ c ∈ pre, isPlain c = true) (value : Text) :
    splitDeclaration? (pre ++ ':' :: value) = some ⟨pre.trim, value, pre.length + 1⟩ := by
  have hcolon : splitColon? .outside false (':' :: value) = some ([], value) := rfl
  rw [splitDeclaration?, splitColon?_plain h, hcolon]
  simp

/-- What stands before the colon of a variable is plain. -/
theorem exists_colon_of_isVariable (h : isVariable line = true) :
    ∃ pre value, line = pre ++ ':' :: value ∧ ∀ c ∈ pre, isPlain c = true := by
  have hblanks : ∀ c ∈ line.blanks, isPlain c = true :=
    fun c hc => isPlain_of_isBlank (List.mem_takeWhile_imp hc)
  unfold isVariable variableName? at h
  split at h
  · rename_i rest hbody
    obtain ⟨⟨name, value⟩, hname⟩ := Option.isSome_iff_exists.1 (by simpa using h)
    obtain ⟨pre, rfl, hpre⟩ := nameAndColon?_eq hname
    refine ⟨line.blanks ++ '$' :: pre, value, ?_, fun c hc => ?_⟩
    · rw [List.append_assoc, List.cons_append, ← hbody, line.blanks_append_body]
    · rcases List.mem_append.1 hc with hb | hc
      · exact hblanks c hb
      · rcases List.mem_cons.1 hc with rfl | hc
        · decide
        · exact hpre c hc
  · rename_i rest hbody
    obtain ⟨⟨name, value⟩, hname⟩ := Option.isSome_iff_exists.1 (by simpa using h)
    obtain ⟨pre, rfl, hpre⟩ := nameAndColon?_eq hname
    refine ⟨line.blanks ++ '-' :: '-' :: pre, value, ?_, fun c hc => ?_⟩
    · rw [List.append_assoc, List.cons_append, List.cons_append, ← hbody, line.blanks_append_body]
    · rcases List.mem_append.1 hc with hb | hc
      · exact hblanks c hb
      · rcases List.mem_cons.1 hc with rfl | hc
        · decide
        · rcases List.mem_cons.1 hc with rfl | hc
          · decide
          · exact hpre c hc
  · cases h

/-- The lines that are told to be variables can be cut at their colon. -/
theorem splitDeclaration?_isSome (h : kindOutsideComment line = .variableDecl) :
    (splitDeclaration? line).isSome = true := by
  have hpassed := passed_kind line
  rw [h] at hpassed
  obtain ⟨pre, value, rfl, hpre⟩ := exists_colon_of_isVariable hpassed
  rw [splitDeclaration?_plain hpre]
  rfl

end Line

/-! ## Mixins -/

/-- The parameters of a mixin as written do not depend on their columns. -/
theorem splitArguments_texts (current : Text) (start start' depth : Nat) (q : Quote)
    (column column' : Nat) (t : Text) :
    (splitArguments current start depth q column t).map Prod.fst =
      (splitArguments current start' depth q column' t).map Prod.fst := by
  induction t generalizing current start start' depth q column column' with
  | nil =>
    unfold splitArguments
    split <;> rfl
  | cons c t ih =>
    unfold splitArguments
    split
    · exact ih ..
    · dsimp only
      split
      · simp only [List.map_cons, ih [] _ (if current.isEmpty then column' else start') depth q
          (column + 1) (column' + 1)]
      · exact ih ..

theorem MixinClause.ofLine_blanks {pre : Text} (h : Blanks pre) (line : Text) :
    (ofLine (pre ++ line)).spelling = (ofLine line).spelling ∧
      (ofLine (pre ++ line)).name = (ofLine line).name ∧
      (ofLine (pre ++ line)).parameters.map Prod.fst = (ofLine line).parameters.map Prod.fst := by
  unfold ofLine
  rw [Text.trimStart_blanks h]
  generalize (if line.trimStart.startsWith "@mixin".toList then (Spelling.keyword, 6)
    else (Spelling.sigil, 1)) = spelled
  obtain ⟨spelling, length⟩ := spelled
  dsimp only
  split
  · exact ⟨rfl, rfl, splitArguments_texts ..⟩
  · exact ⟨rfl, rfl, rfl⟩

end IndentedSass
