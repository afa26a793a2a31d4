/-
  What the formatter sees of a line.

  The traits of a line are all that decides how it is formatted, apart from its column
  and the marks.  They are those of what stands between its indentation and the white
  space at its end (`traits_blanks`, `traits_white`), and they do not change when the
  space after the colon of a declaration is put (`traits_spaceAfterColon`).

  * `isMark_of_white`: a mark stays one without the white space at its end;
  * `isBraceSyntax_quiet`: braces are looked for behind the name of a declaration.
-/
import Mathlib
import IndentedSass.Line.Scan
import IndentedSass.Proofs.Line.Indented
import IndentedSass.Proofs.Text.Trailing

namespace IndentedSass.Line

variable {pre t ws : Text}

/-! ## White space at the end -/

theorem isBlankLine_white (hw : White ws) (t : Text) : isBlankLine (t ++ ws) = isBlankLine t := by
  rw [isBlankLine, Text.isAllWhite, Text.trim_white hw]
  rfl

/-- White space at the end of a line is white space at the end of its body. -/
theorem exists_body_white (hw : White ws) (t : Text) :
    ∃ rest, White rest ∧ (t ++ ws).body = t.body ++ rest := by
  rcases Text.body_white hw t with ⟨hnil, hrest⟩ | ⟨-, hbody⟩
  · rw [hnil]
    exact ⟨_, hrest, rfl⟩
  · exact ⟨ws, hw, hbody⟩

/-- What does not see the white space at the end of a text does not see it at the end
    of a line. -/
theorem body_white_congr {α : Type} (f : Text → α)
    (hf : ∀ (t ws : Text), White ws → f (t ++ ws) = f t) (hw : White ws) (t : Text) :
    f (t ++ ws).body = f t.body := by
  obtain ⟨rest, hrest, hbody⟩ := exists_body_white hw t
  rw [hbody]
  exact hf _ rest hrest

/-- What is told by the first character and what follows it, and not by white space. -/
theorem head_white_congr {α : Type} (f : Text → α)
    (hnil : ∀ c ws, White (c :: ws) → f (c :: ws) = f [])
    (hcons : ∀ (c : Char) (t ws : Text), White ws → f (c :: (t ++ ws)) = f (c :: t))
    (hw : White ws) (t : Text) : f (t ++ ws).body = f t.body := by
  refine body_white_congr f (fun t ws hw => ?_) hw t
  cases t with
  | nil =>
    cases ws with
    | nil => rfl
    | cons c ws => exact hnil c ws hw
  | cons c t => exact hcons c t ws hw

theorem White.head_ne {a c : Char} {ws : Text} (ha : isWhite a = false) (h : White (c :: ws)) :
    c ≠ a :=
  (ne_of_isWhite ha (h c (List.mem_cons_self ..))).symm

theorem headIs_white {p : Char → Bool} (hp : ∀ c, isWhite c = true → p c = false) (hw : White ws)
    (t : Text) : headIs p (t ++ ws) = headIs p t := by
  obtain ⟨rest, hrest, hbody⟩ := exists_body_white hw t
  unfold headIs
  rw [hbody]
  cases t.body with
  | nil =>
    cases rest with
    | nil => rfl
    | cons c rest => exact hp c (hrest c (List.mem_cons_self ..))
  | cons c t => rfl

theorem startsWith_white {q : Text} (hq : Text.noWhite q = true) (t ws : Text)
    (hw : White ws) : (t ++ ws).startsWith q = t.startsWith q := by
  rw [Text.startsWith, Text.dropPrefix?_white hq hw, Option.isSome_map]
  rfl

theorem startsWithWord_white {w : String} (h : Text.noWhite w.toList = true) (t ws : Text)
    (hw : White ws) : startsWithWord w (t ++ ws) = startsWithWord w t := by
  unfold startsWithWord
  rw [Text.dropPrefix?_white h hw]
  cases Text.dropPrefix? w.toList t with
  | none => rfl
  | some rest => exact Text.atWordEnd_white hw rest

theorem hasAtRule_white {words : List String}
    (h : (words.all fun w => Text.noWhite w.toList) = true) (hw : White ws) (t : Text) :
    hasAtRule words (t ++ ws) = hasAtRule words t := by
  obtain ⟨rest, hrest, hbody⟩ := exists_body_white hw t
  unfold hasAtRule
  rw [hbody]
  cases t.body with
  | nil =>
    cases rest with
    | nil => rfl
    | cons c rest =>
      have hne : c ≠ '@' := White.head_ne (by decide) hrest
      simp [hne]
  | cons c t =>
    by_cases hc : c = '@'
    · subst hc
      show (words.any fun w => startsWithWord w (t ++ rest)) = words.any fun w => startsWithWord w t
      induction words with
      | nil => rfl
      | cons w words ih =>
        rw [List.all_cons, Bool.and_eq_true] at h
        rw [List.any_cons, List.any_cons, startsWithWord_white h.1 t rest hrest, ih h.2]
    · simp [hc]

/-! ### Declarations -/

theorem nameAndColon?_white (hw : White ws) (t : Text) :
    nameAndColon? (t ++ ws) = (nameAndColon? t).map fun (name, rest) => (name, rest ++ ws) := by
  unfold nameAndColon?
  rw [Text.takeWhile_white (fun _ => isNameChar_of_isWhite) hw,
    Text.dropWhile_white (fun _ => isNameChar_of_isWhite) hw]
  cases t.takeWhile isNameChar with
  | nil => rfl
  | cons c name =>
    rcases Text.body_white hw (t.dropWhile isNameChar) with ⟨hnil, hrest⟩ | ⟨hne, hbody⟩
    · rw [hnil]
      cases hb : Text.body (t.dropWhile isNameChar ++ ws) with
      | nil => rfl
      | cons d rest =>
        rw [hb] at hrest
        have hcolon : d ≠ ':' := White.head_ne (by decide) hrest
        simp [hcolon]
    · obtain ⟨d, rest, hd⟩ := List.exists_cons_of_ne_nil hne
      rw [hbody, hd]
      by_cases hcolon : d = ':'
      · subst hcolon
        rfl
      · simp [hcolon]

theorem isVariable_white (hw : White ws) (t : Text) : isVariable (t ++ ws) = isVariable t := by
  have hname : ∀ (t ws : Text) (f : Text × Text → Text × Text), White ws →
      ((nameAndColon? (t ++ ws)).map f).isSome = ((nameAndColon? t).map f).isSome := by
    intro t ws f hw
    rw [nameAndColon?_white hw, Option.isSome_map, Option.isSome_map, Option.isSome_map]
  obtain ⟨rest, hrest, hbody⟩ := exists_body_white hw t
  unfold isVariable variableName?
  rw [hbody]
  cases t.body with
  | nil =>
    cases rest with
    | nil => rfl
    | cons c rest =>
      have hdollar : c ≠ '$' := White.head_ne (by decide) hrest
      have hhyphen : c ≠ '-' := White.head_ne (by decide) hrest
      simp [hdollar, hhyphen]
  | cons c t =>
    by_cases hdollar : c = '$'
    · subst hdollar
      exact hname t rest _ hrest
    by_cases hhyphen : c = '-'
    · subst hhyphen
      cases t with
      | nil =>
        cases rest with
        | nil => rfl
        | cons d rest =>
          have hd : d ≠ '-' := White.head_ne (by decide) hrest
          simp [hd]
      | cons d t =>
        by_cases hd : d = '-'
        · subst hd
          exact hname t rest _ hrest
        · simp [hd]
    · simp [hdollar, hhyphen]

theorem isElementWithPseudo_white (hw : White ws) (name t : Text) :
    isElementWithPseudo name (t ++ ws) = isElementWithPseudo name t := by
  have hp : ∀ c : Char, isWhite c = true → (c.isAlphanum || c == '-') = false :=
    fun _ => false_of_isWhite (p := fun c => c.isAlphanum || c == '-') (by decide)
  unfold isElementWithPseudo
  cases t with
  | nil =>
    cases ws with
    | nil => rfl
    | cons c ws =>
      have hcolon : c ≠ ':' := White.head_ne (by decide) hw
      simp [hcolon, hp c (hw c (List.mem_cons_self ..))]
  | cons c t =>
    have htake := Text.takeWhile_white hp hw (c :: t)
    rw [List.cons_append] at htake
    by_cases hcolon : c = ':'
    · subst hcolon
      rfl
    · rw [List.cons_append, htake]
      simp [hcolon]

theorem isProperty_white (hw : White ws) (t : Text) : isProperty (t ++ ws) = isProperty t := by
  obtain ⟨rest, hrest, hbody⟩ := exists_body_white hw t
  unfold isProperty plainName?
  rw [hbody, nameAndColon?_white hrest]
  cases nameAndColon? t.body with
  | none => rfl
  | some pair =>
    dsimp only [Option.map_some]
    rw [isElementWithPseudo_white hrest]

/-! ### Other beginnings -/

theorem isInclude_white (hw : White ws) (t : Text) : isInclude (t ++ ws) = isInclude t := by
  obtain ⟨rest, hrest, hbody⟩ := exists_body_white hw t
  unfold isInclude
  rw [hasAtRule_white (by decide) hw, hbody]
  congr 1
  cases t.body with
  | nil =>
    cases rest with
    | nil => rfl
    | cons c rest =>
      have hplus : c ≠ '+' := White.head_ne (by decide) hrest
      simp [hplus]
  | cons c t =>
    by_cases hplus : c = '+'
    · subst hplus
      cases t with
      | nil =>
        cases rest with
        | nil => rfl
        | cons d rest => exact isNameChar_of_isWhite (hrest d (List.mem_cons_self ..))
      | cons d t => rfl
    · simp [hplus]

theorem isPseudo_white (hw : White ws) (t : Text) : isPseudo (t ++ ws) = isPseudo t := by
  obtain ⟨rest, hrest, hbody⟩ := exists_body_white hw t
  unfold isPseudo
  rw [hbody]
  cases t.body with
  | nil =>
    cases rest with
    | nil => rfl
    | cons c rest =>
      have hcolon : c ≠ ':' := White.head_ne (by decide) hrest
      simp [hcolon]
  | cons c t =>
    by_cases hcolon : c = ':'
    · subst hcolon
      rcases t with _ | ⟨d, _ | ⟨e, t⟩⟩
      · cases rest with
        | nil => rfl
        | cons d rest =>
          have hd : d ≠ ':' := White.head_ne (by decide) hrest
          simp [hd, isNameChar_of_isWhite (hrest d (List.mem_cons_self ..))]
      · cases rest with
        | nil => rfl
        | cons e rest =>
          by_cases hd : d = ':'
          · subst hd
            exact isNameChar_of_isWhite (hrest e (List.mem_cons_self ..))
          · simp [hd]
      · by_cases hd : d = ':'
        · subst hd
          rfl
        · simp [hd]
    · simp [hcolon]

theorem isAttribute_white (hw : White ws) (t : Text) : isAttribute (t ++ ws) = isAttribute t := by
  obtain ⟨ws, hw, hbody⟩ := exists_body_white hw t
  unfold isAttribute
  rw [hbody]
  cases t.body with
  | nil =>
    cases ws with
    | nil => rfl
    | cons c ws =>
      have hbracket : c ≠ '[' := White.head_ne (by decide) hw
      simp [hbracket]
  | cons c t =>
    by_cases hbracket : c = '['
    · subst hbracket
      show (((t ++ ws).dropWhile isAttributeChar).head? == some ']') =
        ((t.dropWhile isAttributeChar).head? == some ']')
      rw [List.dropWhile_append]
      by_cases hnil : t.dropWhile isAttributeChar = []
      · rw [hnil, if_pos List.isEmpty_nil]
        cases hd : ws.dropWhile isAttributeChar with
        | nil => rfl
        | cons d rest =>
          have hmem : d ∈ ws := List.dropWhile_subset _ (hd ▸ List.mem_cons_self ..)
          have hne : d ≠ ']' := (ne_of_isWhite (by decide) (hw d hmem)).symm
          simp [hne]
      · obtain ⟨d, rest, hd⟩ := List.exists_cons_of_ne_nil hnil
        rw [hd, if_neg (by simp)]
        rfl
    · simp [hbracket]

theorem isKeyframes_white (hw : White ws) (t : Text) : isKeyframes (t ++ ws) = isKeyframes t := by
  have hword := startsWithWord_white (w := "keyframes") (by decide)
  obtain ⟨ws, hw, hbody⟩ := exists_body_white hw t
  unfold isKeyframes
  rw [hbody]
  rcases t.body with _ | ⟨c, t⟩
  · cases ws with
    | nil => rfl
    | cons c ws =>
      have hat : c ≠ '@' := White.head_ne (by decide) hw
      simp [hat]
  by_cases hat : c = '@'
  · subst hat
    cases t with
    | nil =>
      cases ws with
      | nil => rfl
      | cons d ws =>
        have hd : d ≠ '-' := White.head_ne (by decide) hw
        simpa [hd] using hword [] (d :: ws) hw
    | cons d t =>
      by_cases hd : d = '-'
      · subst hd
        simp only [List.cons_append, Text.takeWhile_white (fun _ => isWord_of_isWhite) hw,
          Text.dropWhile_white (fun _ => isWord_of_isWhite) hw]
        cases t.takeWhile isWord with
        | nil => rfl
        | cons a name =>
          cases t.dropWhile isWord with
          | nil =>
            cases ws with
            | nil => rfl
            | cons e ws =>
              have he : e ≠ '-' := White.head_ne (by decide) hw
              simp [he]
          | cons e more =>
            by_cases he : e = '-'
            · subst he
              exact hword more ws hw
            · simp [he]
      · simpa [hd] using hword (d :: t) ws hw
  · simp [hat]

theorem startsWithPercentage_white (t ws : Text) (hw : White ws) :
    startsWithPercentage (t ++ ws) = startsWithPercentage t := by
  have htake := Text.takeWhile_white (fun _ => isDigit_of_isWhite) hw
  have hdrop := Text.dropWhile_white (fun _ => isDigit_of_isWhite) hw
  unfold startsWithPercentage
  rw [htake, hdrop]
  cases t.takeWhile isDigit with
  | nil => rfl
  | cons a digits =>
    match t.dropWhile isDigit, ws with
    | [], [] => rfl
    | [], c :: ws =>
      have hpercent : c ≠ '%' := White.head_ne (by decide) hw
      have hpoint : c ≠ '.' := White.head_ne (by decide) hw
      simp [hpercent, hpoint]
    | c :: rest, ws =>
      by_cases hpercent : c = '%'
      · subst hpercent
        rfl
      by_cases hpoint : c = '.'
      · subst hpoint
        simp only [List.cons_append, htake, hdrop]
        cases rest.takeWhile isDigit with
        | nil => rfl
        | cons b fraction =>
          match rest.dropWhile isDigit, ws with
          | [], [] => rfl
          | [], d :: ws =>
            have hd : d ≠ '%' := White.head_ne (by decide) hw
            simp [hd]
          | d :: more, ws =>
            by_cases hd : d = '%'
            · subst hd
              rfl
            · simp [hd]
      · simp [hpercent, hpoint]

theorem isKeyframePoint_white (hw : White ws) (t : Text) :
    isKeyframePoint (t ++ ws) = isKeyframePoint t := by
  have hpercent := body_white_congr _ startsWithPercentage_white hw t
  have hfrom := body_white_congr (startsWithWord "from") (startsWithWord_white (by decide)) hw t
  have hto := body_white_congr (startsWithWord "to") (startsWithWord_white (by decide)) hw t
  simp only [isKeyframePoint, hasKeyword, hpercent, hfrom, hto]

theorem closesBlockComment_white (hw : White ws) (t : Text) :
    closesBlockComment (t ++ ws) = closesBlockComment t := by
  rw [closesBlockComment, Text.has, Text.after?_white (by decide) hw, Option.isSome_map]
  rfl

theorem leavesCommentOpen_white (hw : White ws) (t : Text) :
    leavesCommentOpen (t ++ ws) = leavesCommentOpen t := by
  unfold leavesCommentOpen
  rw [Text.after?_white (by decide) hw]
  cases t.after? ['/', '*'] with
  | none => rfl
  | some rest =>
    rw [Option.map_some, Option.getD_some, Option.getD_some, closesBlockComment_white hw]

/-! ## Marks -/

/-- What is left of a line comment without its slashes. -/
def afterSlashes (rest : Text) : Text :=
  Text.body (match rest with
    | '/' :: more => more
    | _ => rest)

theorem isMark_eq {mark : Char} {rest : Text} (h : t.body = '/' :: '/' :: rest) :
    isMark mark t = match afterSlashes rest with
      | c :: more => c == mark && List.isEmpty (Text.body more)
      | [] => false := by
  unfold isMark
  rw [h]
  rfl

theorem isMark_iff {mark : Char} : isMark mark t = true ↔ ∃ rest more,
    t.body = '/' :: '/' :: rest ∧ afterSlashes rest = mark :: more ∧ Text.body more = [] := by
  constructor
  · intro h
    have hbody : ∃ rest, t.body = '/' :: '/' :: rest := by
      unfold isMark at h
      split at h
      · exact ⟨_, ‹_›⟩
      · cases h
    obtain ⟨rest, hrest⟩ := hbody
    rw [isMark_eq hrest] at h
    split at h
    · rename_i c more hc
      simp only [Bool.and_eq_true, beq_iff_eq, List.isEmpty_iff] at h
      obtain ⟨rfl, hmore⟩ := h
      exact ⟨rest, more, hrest, hc, hmore⟩
    · cases h
  · rintro ⟨rest, more, hbody, hrest, hmore⟩
    rw [isMark_eq hbody, hrest]
    simp [hmore]

theorem isLineComment_of_isMark {mark : Char} (h : isMark mark t = true) :
    isLineComment t = true := by
  obtain ⟨rest, -, hbody, -⟩ := isMark_iff.1 h
  rw [isLineComment, hbody]
  rfl

/-- A mark opens no block comment. -/
theorem opensBlockComment_of_isMark {mark : Char} (h : isMark mark t = true) :
    opensBlockComment t = false := by
  obtain ⟨rest, -, hbody, -⟩ := isMark_iff.1 h
  rw [opensBlockComment, hbody]
  rfl

theorem isMark_unique {a b : Char} (ha : isMark a t = true) (hb : isMark b t = true) : a = b := by
  obtain ⟨rest, more, hbody, hrest, -⟩ := isMark_iff.1 ha
  obtain ⟨rest', more', hbody', hrest', -⟩ := isMark_iff.1 hb
  rw [hbody] at hbody'
  cases hbody'
  rw [hrest] at hrest'
  cases hrest'
  rfl

/-- A mark stays one without the white space at its end. -/
theorem isMark_of_white {mark : Char} (hmark : isWhite mark = false) (hw : White ws)
    (h : isMark mark (t ++ ws) = true) : isMark mark t = true := by
  obtain ⟨rest, more, hbody, hrest, hmore⟩ := isMark_iff.1 h
  rcases Text.body_white hw t with ⟨-, hwhite⟩ | ⟨-, hsplit⟩
  · rw [hbody] at hwhite
    exact absurd rfl (White.head_ne (a := '/') (by decide) hwhite)
  rw [hsplit] at hbody
  -- the slashes are part of the text
  have hslashes : ∃ r, t.body = '/' :: '/' :: r ∧ rest = r ++ ws := by
    match hb : t.body with
    | [] =>
      rw [hb, List.nil_append] at hbody
      rw [hbody] at hw
      exact absurd rfl (White.head_ne (a := '/') (by decide) hw)
    | [c] =>
      rw [hb, List.cons_append, List.nil_append, List.cons.injEq] at hbody
      rw [hbody.2] at hw
      exact absurd rfl (White.head_ne (a := '/') (by decide) hw)
    | c :: d :: r =>
      rw [hb] at hbody
      simp only [List.cons_append, List.cons.injEq] at hbody
      obtain ⟨rfl, rfl, rfl⟩ := hbody
      exact ⟨r, rfl, rfl⟩
  obtain ⟨r, hr, rfl⟩ := hslashes
  refine isMark_iff.2 ?_
  -- so is the letter
  have hletter : ∀ s : Text, Text.body (s ++ ws) = mark :: more → ∃ more, Text.body s = mark :: more ∧
      Text.body more = [] := by
    intro s hs
    rcases Text.body_white hw s with ⟨-, hwhite⟩ | ⟨hne, hs'⟩
    · rw [hs] at hwhite
      exact absurd rfl (White.head_ne hmark hwhite)
    · obtain ⟨c, m, hm⟩ := List.exists_cons_of_ne_nil hne
      rw [hs', hm, List.cons_append, List.cons.injEq] at hs
      obtain ⟨rfl, rfl⟩ := hs
      refine ⟨m, hm, ?_⟩
      rcases Text.body_white hw m with ⟨hnil, -⟩ | ⟨hne, hm'⟩
      · exact hnil
      · rw [hmore] at hm'
        exact absurd (List.append_eq_nil_iff.1 hm'.symm).1 hne
  cases r with
  | nil =>
    cases ws with
    | nil => exact ⟨[], more, hr, hrest, hmore⟩
    | cons c ws =>
      have hc : c ≠ '/' := White.head_ne (by decide) hw
      have hsame : afterSlashes ([] ++ c :: ws) = Text.body ([] ++ c :: ws) := by
        simp [afterSlashes, hc]
      obtain ⟨more', hmore', -⟩ := hletter [] (hsame ▸ hrest)
      cases hmore'
  | cons c r =>
    by_cases hc : c = '/'
    · subst hc
      obtain ⟨more', hletter, hmore'⟩ := hletter r hrest
      exact ⟨_, more', hr, hletter, hmore'⟩
    · have hsame : ∀ r, afterSlashes (c :: r) = Text.body (c :: r) := by
        intro r
        simp [afterSlashes, hc]
      rw [List.cons_append, hsame] at hrest
      obtain ⟨more', hletter, hmore'⟩ := hletter (c :: r) hrest
      exact ⟨_, more', hr, by rw [hsame, hletter], hmore'⟩

/-! ## Braces -/

/-- A character that neither belongs to brace syntax nor hides what follows it. -/
def isQuiet (c : Char) : Bool :=
  !(['/', '"', '\'', '(', ')', '#', ';', '\x7b', '\x7d'].contains c)

theorem isQuiet_of_isBlank {c : Char} (h : isBlank c = true) : isQuiet c = true := by
  rcases isBlank_iff.1 h with rfl | rfl <;> decide

/-- The part of `isBraceSyntax` that looks at the code of a line. -/
def endsInBraces (code : Text) : Bool :=
  match code.getLast? with
  | some ';' | some '\x7b' => true
  | some '\x7d' => !hasOnlyInterpolations code
  | _ => false

theorem isBraceSyntax_eq (line : Text) :
    isBraceSyntax line false = endsInBraces (code line).trimEnd := rfl

theorem isBraceSyntax_white (hw : White ws) (t : Text) :
    isBraceSyntax (t ++ ws) false = isBraceSyntax t false := by
  have hcode : ∀ (t : Text) (q : Quote) (depth : Nat),
      (splitCommentFrom q depth (t ++ ws)).1 = (splitCommentFrom q depth t).1 ∨
        (splitCommentFrom q depth (t ++ ws)).1 = (splitCommentFrom q depth t).1 ++ ws := by
    have hall : ∀ (ws : Text) (q : Quote) (depth : Nat), White ws →
        (splitCommentFrom q depth ws).1 = ws := by
      intro ws
      induction ws with
      | nil => intro q depth _; rfl
      | cons c ws ih =>
        intro q depth hw
        have hc : c ≠ '/' := White.head_ne (by decide) hw
        have hrest := ih (q.step .adjacent c) (parenDepth q depth c)
          fun d hd => hw d (List.mem_cons_of_mem c hd)
        rw [splitCommentFrom, if_neg (by simp [hc])]
        exact congrArg (c :: ·) hrest
    intro t
    induction t with
    | nil => intro q depth; exact .inr (hall ws q depth hw)
    | cons c t ih =>
      intro q depth
      have hnext : ((t ++ ws).head? == some '/') = (t.head? == some '/') := by
        cases t with
        | nil =>
          cases ws with
          | nil => rfl
          | cons d ws =>
            have hd : d ≠ '/' := White.head_ne (by decide) hw
            simp [hd]
        | cons d t => rfl
      rw [List.cons_append, splitCommentFrom, splitCommentFrom, hnext]
      split
      · exact .inl rfl
      · rcases ih (q.step .adjacent c) (parenDepth q depth c) with h | h
        · exact .inl (congrArg (c :: ·) h)
        · exact .inr (congrArg (c :: ·) h)
  rw [isBraceSyntax_eq, isBraceSyntax_eq]
  rcases hcode t .outside 0 with h | h
  · rw [code, splitComment, h]
    rfl
  · rw [code, splitComment, h, Text.trimEnd_white hw]
    rfl

theorem code_quiet {p : Text} (h : ∀ c ∈ p, isQuiet c = true) (t : Text) :
    code (p ++ t) = p ++ code t := by
  unfold code splitComment
  induction p with
  | nil => rfl
  | cons c p ih =>
    have hc := h c (List.mem_cons_self ..)
    simp only [isQuiet, List.contains_eq_mem, List.mem_cons, List.not_mem_nil, or_false,
      Bool.not_eq_true', decide_eq_false_iff_not, not_or] at hc
    obtain ⟨hslash, hquote, hquote', hopen, hclose, -⟩ := hc
    have hstep : Quote.step .adjacent .outside c = .outside := by
      simp [Quote.step, isQuoteMark, hquote, hquote']
    have hdepth : parenDepth .outside 0 c = 0 := by
      simp [parenDepth, hopen, hclose]
    rw [List.cons_append, splitCommentFrom, if_neg (by simp [hslash]), hstep, hdepth]
    exact congrArg (c :: ·) (ih fun d hd => h d (List.mem_cons_of_mem c hd))

theorem countInterpolations_quiet {p : Text} (h : ∀ c ∈ p, isQuiet c = true) (t : Text) :
    countInterpolations (p ++ t) = countInterpolations t := by
  induction p with
  | nil => rfl
  | cons c p ih =>
    have hc : c ≠ '#' := by
      rintro rfl
      exact absurd (h '#' (List.mem_cons_self ..)) (by decide)
    rw [List.cons_append, countInterpolations]
    · exact ih fun d hd => h d (List.mem_cons_of_mem c hd)
    · intro rest heq
      exact absurd heq hc

/-- Braces are looked for behind quiet characters. -/
theorem isBraceSyntax_quiet {p : Text} (h : ∀ c ∈ p, isQuiet c = true) (t : Text) :
    isBraceSyntax (p ++ t) false = isBraceSyntax t false := by
  rw [isBraceSyntax_eq, isBraceSyntax_eq, code_quiet h]
  obtain ⟨ws, hw, hcode⟩ := Text.exists_white (code t)
  rw [hcode, ← List.append_assoc, Text.trimEnd_white hw, Text.trimEnd_white hw,
    Text.trimEnd_trimEnd]
  have hlast := Text.getLast?_trimEnd (code t)
  generalize (code t).trimEnd = z at hlast
  by_cases hz : z = []
  · -- the last character of the code is a quiet one
    subst hz
    rw [List.append_nil]
    unfold endsInBraces
    cases hp : (Text.trimEnd p).getLast? with
    | none => rfl
    | some c =>
      have hmem : c ∈ p := by
        obtain ⟨ws, -, hsplit⟩ := Text.exists_white p
        rw [hsplit]
        exact List.mem_append_left _ (List.mem_of_getLast? hp)
      have hc := h c hmem
      have hsemicolon : c ≠ ';' := by
        rintro rfl
        exact absurd hc (by decide)
      have hopen : c ≠ '\x7b' := by
        rintro rfl
        exact absurd hc (by decide)
      have hclose : c ≠ '\x7d' := by
        rintro rfl
        exact absurd hc (by decide)
      simp [hsemicolon, hopen, hclose]
  · have hself : Text.trimEnd (p ++ z) = p ++ z := by
      refine Text.trimEnd_eq_self ?_
      rwa [List.getLast?_append_of_ne_nil _ hz]
    have hcount : ∀ a : Char, isQuiet a = false → (p ++ z).count a = z.count a := by
      intro a ha
      have hnone : p.count a = 0 := List.count_eq_zero.2 fun hmem => by
        rw [h a hmem] at ha
        cases ha
      rw [List.count_append, hnone, Nat.zero_add]
    have honly : hasOnlyInterpolations (p ++ z) = hasOnlyInterpolations z := by
      rw [hasOnlyInterpolations, hcount _ (by decide), hcount _ (by decide),
        countInterpolations_quiet h]
      rfl
    rw [hself]
    unfold endsInBraces
    rw [List.getLast?_append_of_ne_nil _ hz, honly]

/-! ## Traits -/

/-- What decides how a line is formatted, apart from its column and the marks. -/
structure Traits where
  isBlankLine : Bool
  isLineComment : Bool
  opensBlockComment : Bool
  isProperty : Bool
  isVariable : Bool
  isKeyframes : Bool
  isKeyframePoint : Bool
  isIfOrElse : Bool
  isElse : Bool
  isClassOrId : Bool
  isMixin : Bool
  isElement : Bool
  isStar : Bool
  isParentRef : Bool
  isPseudo : Bool
  isAttribute : Bool
  isBlockAtRule : Bool
  isStatementAtRule : Bool
  isAtRule : Bool
  isInclude : Bool
  isExtend : Bool
  isBraceSyntax : Bool
  deriving DecidableEq, Repr

/-- The traits of a line. -/
def traits (line : Text) : Traits where
  isBlankLine := isBlankLine line
  isLineComment := isLineComment line
  opensBlockComment := opensBlockComment line
  isProperty := isProperty line
  isVariable := isVariable line
  isKeyframes := isKeyframes line
  isKeyframePoint := isKeyframePoint line
  isIfOrElse := isIfOrElse line
  isElse := isElse line
  isClassOrId := isClassOrId line
  isMixin := isMixin line
  isElement := isElement line.trim
  isStar := isStar line
  isParentRef := isParentRef line
  isPseudo := isPseudo line
  isAttribute := isAttribute line
  isBlockAtRule := isBlockAtRule line
  isStatementAtRule := isStatementAtRule line
  isAtRule := isAtRule line
  isInclude := isInclude line
  isExtend := isExtend line
  isBraceSyntax := isBraceSyntax line false

/-- The white space at the end of a line is no trait. -/
theorem traits_white (hw : White ws) (t : Text) : traits (t ++ ws) = traits t := by
  have hcomment : isLineComment (t ++ ws) = isLineComment t :=
    body_white_congr (Text.startsWith · ['/', '/']) (startsWith_white (by decide)) hw t
  have hopens : opensBlockComment (t ++ ws) = opensBlockComment t :=
    body_white_congr (Text.startsWith · ['/', '*']) (startsWith_white (by decide)) hw t
  have hhead : ∀ p : Char → Bool, (∀ n ∈ whiteCodes, p (Char.ofNat n) = false) →
      headIs p (t ++ ws) = headIs p t :=
    fun p hp => headIs_white (fun _ => false_of_isWhite hp) hw t
  have hrule : ∀ words : List String, (words.all fun w => Text.noWhite w.toList) = true →
      hasAtRule words (t ++ ws) = hasAtRule words t :=
    fun words h => hasAtRule_white h hw t
  have hmixin : isMixin (t ++ ws) = isMixin t := by
    rw [isMixin, hrule _ (by decide), hhead _ (by decide)]
    rfl
  rw [traits, isBlankLine_white hw, hcomment, hopens, isProperty_white hw, isVariable_white hw,
    isKeyframes_white hw, isKeyframePoint_white hw, isIfOrElse, hrule _ (by decide), isElse,
    hrule _ (by decide), isClassOrId, hhead _ (by decide), hmixin, Text.trim_white hw, isStar,
    hhead _ (by decide), isParentRef, hhead _ (by decide), isPseudo_white hw, isAttribute_white hw,
    isBlockAtRule, hrule _ (by decide), isStatementAtRule, hrule _ (by decide), isAtRule,
    hhead _ (by decide), isInclude_white hw, isExtend, hrule _ (by decide), isBraceSyntax_white hw]
  rfl

/-- The indentation of a line is no trait. -/
theorem traits_blanks (h : Blanks pre) (t : Text) : traits (pre ++ t) = traits t := by
  have hquiet : ∀ c ∈ pre, isQuiet c = true := fun c hc => isQuiet_of_isBlank (h c hc)
  rw [traits, isBlankLine_blanks h, Text.trim_blanks h, isBraceSyntax_quiet hquiet]
  unfold isLineComment opensBlockComment isProperty plainName? isVariable variableName? isKeyframes
    isKeyframePoint hasKeyword isIfOrElse isElse isClassOrId isMixin isStar isParentRef isPseudo
    isAttribute isBlockAtRule isStatementAtRule isAtRule isInclude isExtend hasAtRule headIs
  rw [Text.body_blanks h]
  rfl

/-! ## Blank lines and comments -/

/-- A line that is neither a header nor property-like: it has no traits but those of
    blank lines, comments and braces. -/
def IsInert (line : Text) : Prop :=
  traits line = { traits [] with
    isBlankLine := isBlankLine line
    isLineComment := isLineComment line
    opensBlockComment := opensBlockComment line
    isBraceSyntax := isBraceSyntax line false }

theorem white_of_isBlankLine (h : isBlankLine t = true) : White t := by
  have htrim : t.trim = [] := List.isEmpty_iff.1 h
  refine List.dropWhile_eq_nil_iff.1 ?_
  cases hd : t.dropWhile isWhite with
  | nil => rfl
  | cons c rest =>
    have hvisible : isWhite c = false := by
      have hhead := List.head?_dropWhile_not isWhite t
      rw [hd] at hhead
      simpa using hhead
    rw [Text.trim, Text.trimStart, hd] at htrim
    obtain ⟨ws, hw, hsplit⟩ := Text.exists_white (c :: rest)
    rw [htrim, List.nil_append] at hsplit
    rw [hw c (hsplit ▸ List.mem_cons_self ..)] at hvisible
    cases hvisible

theorem traits_of_isBlankLine (h : isBlankLine t = true) : traits t = traits [] :=
  traits_white (white_of_isBlankLine h) []

theorem isInert_of_isBlankLine (h : isBlankLine t = true) : IsInert t := by
  have htraits := traits_of_isBlankLine h
  unfold IsInert
  rw [show isBlankLine t = _ from congrArg Traits.isBlankLine htraits,
    show isLineComment t = _ from congrArg Traits.isLineComment htraits,
    show opensBlockComment t = _ from congrArg Traits.opensBlockComment htraits,
    show isBraceSyntax t false = _ from congrArg Traits.isBraceSyntax htraits, htraits]

theorem body_of_isComment (h : isComment t = true) : ∃ rest, t.body = '/' :: rest := by
  cases hb : t.body with
  | nil =>
    rw [isComment, isLineComment, opensBlockComment, hb] at h
    cases h
  | cons c rest =>
    by_cases hc : c = '/'
    · exact ⟨rest, by rw [hc]⟩
    · rw [isComment, isLineComment, opensBlockComment, hb] at h
      simp [Text.startsWith, Text.dropPrefix?, Ne.symm hc] at h

/-- No element name begins with a slash. -/
theorem isElementName_slash (t : Text) : isElementName ('/' :: t) = false := by
  have hnames : (elementNames.all fun w => w.toList.head? != some '/') = true := by decide +kernel
  refine Bool.eq_false_iff.2 fun h => ?_
  have hhead := List.all_eq_true.1 hnames _ (List.contains_iff_mem.1 h)
  simp [Text.string] at hhead

theorem isInert_of_isComment (h : isComment t = true) : IsInert t := by
  obtain ⟨rest, hbody⟩ := body_of_isComment h
  have hrule : ∀ words, hasAtRule words t = false := by
    intro words
    rw [hasAtRule, hbody]
    rfl
  have hhead : ∀ p, headIs p t = p '/' := by
    intro p
    rw [headIs, hbody]
  have hname : nameAndColon? t.body = none := by
    rw [hbody, nameAndColon?, List.takeWhile_cons_of_neg (by decide)]
  have hproperty : isProperty t = false := by
    rw [isProperty, plainName?, hname]
  have hvariable : isVariable t = false := by
    rw [isVariable, variableName?, hbody]
    rfl
  have hpoint : isKeyframePoint t = false := by
    have hpercent : startsWithPercentage ('/' :: rest) = false := by
      rw [startsWithPercentage, List.takeWhile_cons_of_neg (by decide)]
    rw [isKeyframePoint, hasKeyword, hasKeyword, hbody, hpercent]
    rfl
  have hkeyframes : isKeyframes t = false := by
    rw [isKeyframes, hbody]
    rfl
  have hpseudo : isPseudo t = false := by
    rw [isPseudo, hbody]
    rfl
  have hattribute : isAttribute t = false := by
    rw [isAttribute, hbody]
    rfl
  have hinclude : isInclude t = false := by
    rw [isInclude, hrule, hbody]
    rfl
  have helement : isElement t.trim = false := by
    have hstart : Text.trimStart ('/' :: rest) = '/' :: rest :=
      List.dropWhile_cons_of_neg (by decide)
    obtain ⟨ws, hw, hsplit⟩ := Text.exists_white ('/' :: rest)
    rw [← t.blanks_append_body, Text.trim_blanks t.blanks_blanks, hbody, Text.trim, hstart]
    cases htrim : Text.trimEnd ('/' :: rest) with
    | nil =>
      rw [htrim, List.nil_append] at hsplit
      exact absurd rfl (White.head_ne (a := '/') (by decide) (hsplit ▸ hw))
    | cons c more =>
      rw [htrim, List.cons_append, List.cons.injEq] at hsplit
      rw [← hsplit.1, isElement, Text.body, List.dropWhile_cons_of_neg (by decide),
        List.takeWhile_cons_of_pos (by decide), isElementName_slash]
  unfold IsInert
  simp only [traits, hproperty, hvariable, hkeyframes, hpoint, isIfOrElse, isElse, hrule,
    isClassOrId, isMixin, hhead, helement, isStar, isParentRef, hpseudo, hattribute, isBlockAtRule,
    isStatementAtRule, isAtRule, hinclude, isExtend]
  rfl

end IndentedSass.Line
