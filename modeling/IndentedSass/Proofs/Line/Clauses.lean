/-
  What the reader sees of a line.

  The reader sees what stands between the indentation of a line and the white space at
  its end (`congr_of_trimEnd_body`).

  * `importPaths?_white`, `UseClause.ofLine?_white` and `MixinClause.ofLine_white`: the
    clauses of at-rules;
  * `nameAndValue?_trimEnd` and `nameAndValue?_spaceAfterColon`: declarations, up to the white
    space around their values;
  * `kindOutsideComment_white`: the kind of a line, unless it is `+` only.
-/
import Mathlib
import IndentedSass.Line.Kind
import IndentedSass.Reader.Clause
import IndentedSass.Proofs.Line.Spacing

namespace IndentedSass

variable {l l' t ws pre : Text}

/-- What sees neither the indentation of a line nor the white space at its end agrees on
    lines that differ in nothing else. -/
theorem Line.congr_of_trimEnd_body {α : Type} (f : Text → α)
    (hblanks : ∀ {pre : Text}, Blanks pre → ∀ t : Text, f (pre ++ t) = f t)
    (hwhite : ∀ {ws : Text}, White ws → ∀ t : Text, f (t ++ ws) = f t)
    (h : Text.trimEnd l.body = Text.trimEnd l'.body) : f l = f l' := by
  have hbody : ∀ t : Text, f t = f (Text.trimEnd t.body) := by
    intro t
    obtain ⟨ws, hw, hsplit⟩ := Text.exists_white t.body
    calc f t = f (t.blanks ++ t.body) := by rw [t.blanks_append_body]
      _ = f t.body := hblanks t.blanks_blanks _
      _ = f (Text.trimEnd t.body ++ ws) := by rw [← hsplit]
      _ = f (Text.trimEnd t.body) := hwhite hw _
  rw [hbody l, h, ← hbody l']

/-! ## `@import` -/

namespace Text

theorem splitOn_append {sep : Char} (h : sep ∉ t) (s : Text) :
    ∃ first last, splitOn sep s = first ++ [last] ∧ splitOn sep (s ++ t) = first ++ [last ++ t] := by
  induction s with
  | nil =>
    refine ⟨[], [], rfl, ?_⟩
    induction t with
    | nil => rfl
    | cons c t ih =>
      rw [List.mem_cons, not_or] at h
      have hrest := ih h.2
      simp only [List.nil_append] at hrest ⊢
      rw [splitOn, if_neg (Ne.symm h.1), hrest]
  | cons c s ih =>
    obtain ⟨first, last, hs, hst⟩ := ih
    rw [List.cons_append, splitOn, splitOn, hs, hst]
    by_cases hc : c = sep
    · rw [if_pos hc, if_pos hc]
      exact ⟨[] :: first, last, rfl, rfl⟩
    · rw [if_neg hc, if_neg hc]
      cases first with
      | nil => exact ⟨[], c :: last, rfl, rfl⟩
      | cons piece pieces => exact ⟨(c :: piece) :: pieces, last, rfl, rfl⟩

end Text

theorem splitImportPaths_white (hw : White ws) (t : Text) :
    splitImportPaths (t ++ ws) = splitImportPaths t := by
  have hcomma : ',' ∉ ws := by
    intro hmem
    exact absurd (hw ',' hmem) (by decide)
  have hlast : ∀ last : Text, importPath (last ++ ws) = importPath last := by
    intro last
    rw [importPath, Text.trim_white hw]
    rfl
  obtain ⟨first, last, ht, htw⟩ := Text.splitOn_append hcomma t
  rw [splitImportPaths, splitImportPaths, ht, htw, List.map_append, List.map_append, List.map_cons,
    List.map_cons, hlast]

/-- A line without paths may or may not have a blank behind the keyword. -/
theorem importPaths?_white (hw : White ws) (t : Text) :
    (importPaths? (t ++ ws)).getD [] = (importPaths? t).getD [] := by
  obtain ⟨ws, hw, hline⟩ := Line.exists_body_white hw t
  unfold importPaths?
  have hpaths : ∀ {ws : Text}, White ws → splitImportPaths (Text.body ws) = [] := by
    intro ws hw
    rw [show Text.body ws = [] ++ Text.body ws from rfl, splitImportPaths_white (Text.white_body hw)]
    rfl
  rw [hline, Text.dropPrefix?_white (by decide) hw]
  cases Text.dropPrefix? "@import".toList t.body with
  | none => rfl
  | some rest =>
    cases rest with
    | nil =>
      cases ws with
      | nil => rfl
      | cons c ws =>
        simp only [Option.map_some, List.nil_append, hpaths hw]
        split <;> rfl
    | cons c rest =>
      simp only [Option.map_some, List.cons_append]
      split
      · congr 1
        rw [← List.cons_append]
        rcases Text.body_white hw (c :: rest) with ⟨hnil, hwhite⟩ | ⟨-, hbody⟩
        · rw [hnil, show Text.body (c :: rest ++ ws) = [] ++ Text.body (c :: rest ++ ws) from rfl,
            splitImportPaths_white hwhite]
        · rw [hbody, splitImportPaths_white hw]
      · rfl

/-! ## `@use` -/

namespace UseClause

theorem quoted?_of_ne {mark c : Char} (h : c ≠ mark) (t : Text) : quoted? mark (c :: t) = none :=
  if_pos h

theorem quoted?_of_mem {mark : Char} {path : Text} (h : mark ∉ path) (rest : Text) :
    quoted? mark (mark :: (path ++ mark :: rest)) = some (path, rest) := by
  have hpath : ∀ c ∈ path, decide (c ≠ mark) = true := by
    rintro c hc
    refine decide_eq_true ?_
    rintro rfl
    exact h hc
  rw [quoted?, if_neg (not_not_intro rfl), List.dropWhile_append_of_pos hpath,
    List.dropWhile_cons_of_neg (by simp), List.takeWhile_append_of_pos hpath,
    List.takeWhile_cons_of_neg (by simp), List.append_nil]

theorem quoted?_of_not_mem {mark : Char} (h : mark ∉ t) : quoted? mark (mark :: t) = none := by
  have hall : ∀ c ∈ t, decide (c ≠ mark) = true := by
    rintro c hc
    refine decide_eq_true ?_
    rintro rfl
    exact h hc
  rw [quoted?, if_neg (not_not_intro rfl), List.dropWhile_eq_nil_iff.2 hall]

theorem quoted?_white {mark : Char} (hmark : isWhite mark = false) (hw : White ws) (t : Text) :
    quoted? mark (t ++ ws) = (quoted? mark t).map fun (path, rest) => (path, rest ++ ws) := by
  have hws : mark ∉ ws := by
    intro hmem
    rw [hw mark hmem] at hmark
    cases hmark
  cases t with
  | nil =>
    cases ws with
    | nil => rfl
    | cons c ws =>
      have hne : c ≠ mark := (ne_of_isWhite hmark (hw c (List.mem_cons_self ..))).symm
      rw [List.nil_append, quoted?_of_ne hne]
      rfl
  | cons c t =>
    by_cases hc : c = mark
    · subst hc
      by_cases hmem : c ∈ t
      · obtain ⟨path, rest, rfl, hpath⟩ := List.eq_append_cons_of_mem hmem
        rw [List.cons_append, List.append_assoc, List.cons_append, quoted?_of_mem hpath,
          quoted?_of_mem hpath]
        rfl
      · rw [List.cons_append, quoted?_of_not_mem hmem, quoted?_of_not_mem]
        · rfl
        · rw [List.mem_append, not_or]
          exact ⟨hmem, hws⟩
    · rw [List.cons_append, quoted?_of_ne hc, quoted?_of_ne hc]
      rfl

/-- The path is found behind the keyword, and what follows it ends in the white space. -/
theorem path?_white (hw : White ws) (t : Text) :
    path? (t ++ ws) = (path? t).map fun (path, rest) => (path, rest ++ ws) := by
  have hstop : ∀ c, isWhite c = true → (!isWhite c) = false := by
    intro c hc
    rw [hc]
    rfl
  unfold path?
  rw [quoted?_white (by decide) hw, quoted?_white (by decide) hw, Text.takeWhile_white hstop hw,
    Text.dropWhile_white hstop hw]
  cases quoted? '"' t with
  | some found => rfl
  | none =>
    cases quoted? '\'' t with
    | some found => rfl
    | none =>
      dsimp only [Option.map_none]
      split <;> rfl

/-- The name behind `as`. -/
def aliasName? (t : Text) : Option (Option Text) :=
  match t with
  | '*' :: _ => some none
  | name =>
    match name.takeWhile isNameChar with
    | [] => none
    | word => some (some word)

/-- A name is read up to where it ends. -/
theorem aliasName?_name {name behind : Text} (hne : name ≠ [])
    (hname : ∀ c ∈ name, isNameChar c = true) (hend : behind.takeWhile isNameChar = []) :
    aliasName? (Text.body (name ++ behind)) = some (some name) := by
  obtain ⟨c, rest, rfl⟩ := List.exists_cons_of_ne_nil hne
  have hc := hname c (List.mem_cons_self ..)
  have hblank : isBlank c = false := by
    refine Bool.eq_false_iff.2 fun hb => ?_
    rw [isNameChar_of_isWhite (isWhite_of_isBlank hb)] at hc
    cases hc
  have hstar : c ≠ '*' := by
    rintro rfl
    revert hc
    decide
  have htake : (c :: (rest ++ behind)).takeWhile isNameChar = c :: rest := by
    rw [← List.cons_append, List.takeWhile_append_of_pos hname, hend, List.append_nil]
  rw [List.cons_append, Text.body, List.dropWhile_cons_of_neg (by simp [hblank])]
  simp [aliasName?, hstar, htake]

/-- What follows the blank behind the path. -/
def aliasTail? (t : Text) : Option (Option Text) :=
  match t with
  | 'a' :: 's' :: d :: rest => if !isBlank d then none else aliasName? (Text.body rest)
  | _ => none

theorem alias?_cons (c : Char) (t : Text) :
    alias? (c :: t) = if !isBlank c then none else aliasTail? (Text.body (c :: t)) := by
  rfl

theorem aliasName?_white (hw : White ws) (t : Text) :
    aliasName? (t ++ ws).body = aliasName? t.body := by
  refine Line.head_white_congr aliasName? ?_ ?_ hw t
  · intro c ws hw
    have hstar : c ≠ '*' := Line.White.head_ne (by decide) hw
    have htake : (c :: ws).takeWhile isNameChar = [] :=
      Text.takeWhile_of_white (fun _ => isNameChar_of_isWhite) hw
    simp [aliasName?, hstar, htake]
  · intro c t ws hw
    have htake : (c :: t ++ ws).takeWhile isNameChar = (c :: t).takeWhile isNameChar :=
      Text.takeWhile_white (fun _ => isNameChar_of_isWhite) hw _
    rw [List.cons_append] at htake
    by_cases hstar : c = '*'
    · subst hstar
      rfl
    · simp [aliasName?, hstar, htake]

theorem aliasTail?_white (hw : White ws) (t : Text) :
    aliasTail? (t ++ ws).body = aliasTail? t.body := by
  refine Line.body_white_congr aliasTail? (fun t ws hw => ?_) hw t
  -- white space is neither part of the keyword nor a name
  have hkey : ∀ {c : Char}, c ∈ ws → c ≠ 'a' ∧ c ≠ 's' := fun hc =>
    ⟨(ne_of_isWhite (by decide) (hw _ hc)).symm, (ne_of_isWhite (by decide) (hw _ hc)).symm⟩
  match t with
  | [] =>
    cases ws with
    | nil => rfl
    | cons c ws => simp [aliasTail?, (hkey (List.mem_cons_self ..)).1]
  | [c] =>
    cases ws with
    | nil => rfl
    | cons d ws => simp [aliasTail?, (hkey (List.mem_cons_self ..)).2]
  | [c, d] =>
    cases ws with
    | nil => rfl
    | cons f ws =>
      have hrest : White ws := fun g hg => hw g (List.mem_cons_of_mem _ hg)
      have hnone : aliasName? (Text.body ws) = none := aliasName?_white hrest []
      by_cases hcd : c = 'a' ∧ d = 's'
      · obtain ⟨rfl, rfl⟩ := hcd
        simp [aliasTail?, hnone]
      · simp only [List.cons_append, List.nil_append, aliasTail?]
        split
        · rename_i heq
          cases heq
          exact absurd ⟨rfl, rfl⟩ hcd
        · rfl
  | c :: d :: f :: rest =>
    by_cases hcd : c = 'a' ∧ d = 's'
    · obtain ⟨rfl, rfl⟩ := hcd
      simp only [List.cons_append, aliasTail?, aliasName?_white hw]
    · simp only [List.cons_append, aliasTail?]
      split
      · rename_i heq
        cases heq
        exact absurd ⟨rfl, rfl⟩ hcd
      · split
        · rename_i heq
          cases heq
          exact absurd ⟨rfl, rfl⟩ hcd
        · rfl

theorem alias?_white (hw : White ws) (t : Text) : alias? (t ++ ws) = alias? t := by
  have htail := aliasTail?_white hw
  cases t with
  | nil =>
    cases ws with
    | nil => rfl
    | cons c ws =>
      rw [List.nil_append, alias?_cons, show c :: ws = [] ++ c :: ws from rfl, htail []]
      exact ite_self _
  | cons c t => rw [List.cons_append, alias?_cons, alias?_cons, ← List.cons_append, htail]

theorem ofLine?_white (hw : White ws) (t : Text) : ofLine? (t ++ ws) = ofLine? t := by
  obtain ⟨ws, hw, hline⟩ := Line.exists_body_white hw t
  unfold ofLine?
  rw [hline, Text.dropPrefix?_white (by decide) hw]
  have hnone : ∀ {ws : Text}, White ws → path? ws = none := fun hw => path?_white hw []
  cases Text.dropPrefix? "@use".toList t.body with
  | none => rfl
  | some rest =>
    cases rest with
    | nil =>
      cases ws with
      | nil => rfl
      | cons c ws =>
        have hrest : White ws := fun d hd => hw d (List.mem_cons_of_mem _ hd)
        simp [hnone (Text.white_body hrest)]
    | cons c rest =>
      simp only [Option.map_some, List.cons_append]
      rcases Text.body_white hw rest with ⟨hnil, hwhite⟩ | ⟨-, hbody⟩
      · rw [hnil, hnone hwhite, show path? [] = none from rfl]
      · rw [hbody, path?_white hw]
        cases path? (Text.body rest) with
        | none => rfl
        | some found => simp [alias?_white hw]

end UseClause

/-! ## `@mixin` -/

theorem MixinClause.ofLine_white (hw : White ws) (t : Text) :
    (ofLine (t ++ ws)).spelling = (ofLine t).spelling ∧
      (ofLine (t ++ ws)).name = (ofLine t).name ∧
      (ofLine (t ++ ws)).parameters.map Prod.fst = (ofLine t).parameters.map Prod.fst := by
  have hnil : ∀ {t : Text}, t.trimStart = [] → ofLine t = ⟨.sigil, [], []⟩ := by
    intro t ht
    rw [ofLine, ht]
    rfl
  have hstart : (t ++ ws).trimStart =
      if t.trimStart = [] then [] else t.trimStart ++ ws := by
    rw [Text.trimStart, List.dropWhile_append, List.dropWhile_eq_nil_iff.2 hw]
    simp [Text.trimStart]
  by_cases ht : t.trimStart = []
  · rw [if_pos ht] at hstart
    rw [hnil ht, hnil hstart]
    exact ⟨rfl, rfl, rfl⟩
  · rw [if_neg ht] at hstart
    have hkeyword : (t.trimStart ++ ws).startsWith "@mixin".toList =
        t.trimStart.startsWith "@mixin".toList := Line.startsWith_white (by decide) _ _ hw
    have hlength : (if t.trimStart.startsWith "@mixin".toList then (Spelling.keyword, 6)
        else (Spelling.sigil, 1)).2 ≤ t.trimStart.length := by
      split
      · rename_i hprefix
        obtain ⟨rest, hrest⟩ := Option.isSome_iff_exists.1 hprefix
        rw [Text.dropPrefix?_eq_some_iff.1 hrest, List.length_append]
        exact Nat.le_add_right ..
      · exact List.length_pos_of_ne_nil ht
    simp only [ofLine, hstart, hkeyword]
    generalize (if t.trimStart.startsWith "@mixin".toList = true then (Spelling.keyword, 6)
      else (Spelling.sigil, 1)) = spelled at hlength ⊢
    obtain ⟨spelling, length⟩ := spelled
    dsimp only at hlength ⊢
    rw [List.drop_append_of_le_length hlength, Text.trimEnd_white hw]
    split
    · exact ⟨rfl, rfl, splitArguments_texts ..⟩
    · exact ⟨rfl, rfl, rfl⟩

/-! ## Block comments -/

theorem trimEnd_dropColumns_white (tab columns : Nat) (hw : White ws) (t : Text) :
    (dropColumns tab columns (t ++ ws)).trimEnd = (dropColumns tab columns t).trimEnd := by
  induction t generalizing columns with
  | nil =>
    -- what is left of white space is white space
    have hleft : ∀ (ws : Text) (columns : Nat), White ws → White (dropColumns tab columns ws) := by
      intro ws
      induction ws with
      | nil => exact fun _ hw => hw
      | cons c ws ih =>
        intro columns hw
        have hrest : White ws := fun d hd => hw d (List.mem_cons_of_mem c hd)
        unfold dropColumns
        split_ifs
        · exact hw
        · exact ih _ hrest
        · exact ih _ hrest
        · exact hw
    exact Text.trimEnd_white (hleft ws columns hw) []
  | cons c t ih =>
    rw [List.cons_append]
    unfold dropColumns
    split_ifs
    · exact Text.trimEnd_white hw (c :: t)
    · exact ih _
    · exact ih _
    · exact Text.trimEnd_white hw (c :: t)

namespace Line

/-! ## Declarations -/

/-- What stands before the colon of a declaration is plain. -/
theorem exists_colon (h : (isProperty l || isVariable l) = true) :
    ∃ pre value, l = pre ++ ':' :: value ∧ ∀ c ∈ pre, isPlain c = true := by
  rcases Bool.or_eq_true_iff.1 h with hproperty | hvariable
  · unfold isProperty plainName? at hproperty
    cases hname : nameAndColon? l.body with
    | none =>
      rw [hname] at hproperty
      cases hproperty
    | some found =>
      obtain ⟨name, value⟩ := found
      obtain ⟨pre, hbody, hpre⟩ := nameAndColon?_eq hname
      refine ⟨l.blanks ++ pre, value, ?_, fun c hc => ?_⟩
      · rw [List.append_assoc, ← hbody, l.blanks_append_body]
      · rcases List.mem_append.1 hc with hblank | hc
        · exact isPlain_of_isBlank (l.blanks_blanks c hblank)
        · exact hpre c hc
  · exact exists_colon_of_isVariable hvariable

/-- The name and the value of a declaration. -/
def nameAndValue? (line : Text) : Option (Text × Text) :=
  (splitDeclaration? line).map fun d => (d.name, d.value)

theorem nameAndValue?_plain {pre : Text} (h : ∀ c ∈ pre, isPlain c = true) (value : Text) :
    nameAndValue? (pre ++ ':' :: value) = some (pre.trim, value) := by
  rw [nameAndValue?, splitDeclaration?_plain h]
  rfl

theorem nameAndValue?_blanks (h : Blanks pre) (t : Text) :
    nameAndValue? (pre ++ t) = nameAndValue? t := by
  rw [nameAndValue?, nameAndValue?, splitDeclaration?_blanks h, Option.map_map]
  rfl

/-- A declaration without the white space at its end has the value without it. -/
theorem nameAndValue?_trimEnd (h : (isProperty t || isVariable t) = true) {name value : Text}
    (hvalue : nameAndValue? t = some (name, value)) :
    nameAndValue? t.trimEnd = some (name, value.trimEnd) := by
  obtain ⟨pre, v, rfl, hpre⟩ := exists_colon h
  rw [nameAndValue?_plain hpre] at hvalue
  cases hvalue
  obtain ⟨ws, hw, hv⟩ := Text.exists_white value
  have hlast : ∀ c ∈ (pre ++ ':' :: value.trimEnd).getLast?, isWhite c = false := by
    intro c hc
    rw [List.getLast?_append_of_ne_nil _ (by simp)] at hc
    cases hvalue : value.trimEnd with
    | nil =>
      rw [hvalue, List.getLast?_singleton, Option.mem_some_iff] at hc
      rw [← hc]
      decide
    | cons d rest =>
      rw [hvalue, List.getLast?_cons_cons, ← hvalue] at hc
      exact Text.getLast?_trimEnd value c hc
  have htrim : Text.trimEnd (pre ++ ':' :: value) = pre ++ ':' :: value.trimEnd := by
    conv_lhs => rw [hv, ← List.cons_append, ← List.append_assoc, Text.trimEnd_white hw]
    exact Text.trimEnd_eq_self hlast
  rw [htrim, nameAndValue?_plain hpre]

/-- The space after the colon is put before the value. -/
theorem nameAndValue?_spaceAfterColon (hspace : hasSpaceAfterColon t = false) :
    ∃ name value, nameAndValue? t = some (name, value) ∧
      nameAndValue? (spaceAfterColon t) = some (name, ' ' :: value) := by
  obtain ⟨name, c, rest, -, hname, -, hbody, hspaced⟩ := spaceAfterColon_spec hspace
  have hplain : ∀ d ∈ t.blanks ++ name, isPlain d = true := by
    intro d hd
    rcases List.mem_append.1 hd with hblank | hmem
    · exact isPlain_of_isBlank (t.blanks_blanks d hblank)
    · rcases Bool.or_eq_true_iff.1 (hname d hmem) with hdollar | hchar
      · rw [beq_iff_eq.1 hdollar]
        decide
      · exact isPlain_of_isNameChar hchar
  refine ⟨(t.blanks ++ name).trim, c :: rest, ?_, ?_⟩
  · conv_lhs => rw [← t.blanks_append_body, hbody, ← List.append_assoc]
    exact nameAndValue?_plain hplain (c :: rest)
  · rw [hspaced, ← List.append_assoc]
    exact nameAndValue?_plain hplain (' ' :: c :: rest)

/-! ## Kinds -/

/-- The traits of a declaration tell its kind. -/
theorem kindOutsideComment_of_traits (h : traits l = traits l')
    (hd : (isProperty l || isVariable l) = true) :
    kindOutsideComment l = kindOutsideComment l' := by
  simp only [traits, Traits.mk.injEq] at h
  obtain ⟨hblank, hcomment, hopens, hproperty, hvariable, -⟩ := h
  unfold kindOutsideComment
  rw [← hblank, ← hcomment, ← hopens, ← hproperty, ← hvariable]
  rcases Bool.or_eq_true_iff.1 hd with h | h <;> simp [h]

theorem isWhite_of_mem_elementName (h : isElementName t = true) : ∀ c ∈ t, isWhite c = false := by
  have hnames : (elementNames.all fun w => w.toList.all fun c => !isWhite c) = true := by
    decide +kernel
  intro c hc
  have hname := List.all_eq_true.1 hnames _ (List.contains_iff_mem.1 h)
  have hvisible := List.all_eq_true.1 hname c (by simpa [Text.string] using hc)
  simpa using hvisible

theorem isElement_of_white (hw : White ws) (h : isElement (t ++ ws) = true) :
    isElement t = true := by
  obtain ⟨w, hwhite, hbody⟩ := exists_body_white hw t
  rw [isElement, hbody, List.takeWhile_append] at h
  rw [isElement]
  split at h
  · rename_i hall
    have hnone : w.takeWhile (fun c => !endsElement c) = [] := by
      refine List.eq_nil_iff_forall_not_mem.2 fun c hc => ?_
      have hvisible := isWhite_of_mem_elementName h c (List.mem_append_right _ hc)
      rw [hwhite c (List.takeWhile_subset _ hc)] at hvisible
      cases hvisible
    rw [hnone, List.append_nil] at h
    rwa [(List.takeWhile_prefix _).eq_of_length hall]
  · exact h

theorem hasSelectorSigil_of_white (hw : White ws) (hplus : t.body ≠ ['+'])
    (h : hasSelectorSigil (t ++ ws) = true) : hasSelectorSigil t = true := by
  obtain ⟨w, hwhite, hbody⟩ := exists_body_white hw t
  unfold hasSelectorSigil at h ⊢
  rw [hbody] at h
  cases ht : t.body with
  | nil =>
    -- a sigil is no white space
    rw [ht, List.nil_append] at h
    cases w with
    | nil => cases h
    | cons c w =>
      have hsigil : ∀ c, isWhite c = true → ".#%&[*:>~".toList.contains c = false :=
        fun c => false_of_isWhite (p := ".#%&[*:>~".toList.contains) (by decide)
      have hc := hwhite c (List.mem_cons_self ..)
      have hne : c ≠ '+' := (ne_of_isWhite (by decide) hc).symm
      split at h
      · rename_i heq
        cases heq
        exact absurd rfl hne
      · rename_i heq
        cases heq
        rw [hsigil c hc] at h
        cases h
      · cases h
  | cons c rest =>
    rw [ht] at h hplus
    by_cases hc : c = '+'
    · subst hc
      cases rest with
      | nil => exact absurd rfl hplus
      | cons d rest => exact h
    · simpa [hc] using h

/-- The white space at the end of a line does not change its kind, unless the line is
    nothing known without it. -/
theorem kindOutsideComment_white (hw : White ws) (hplus : t.body ≠ ['+'])
    (hknown : kindOutsideComment (t ++ ws) ≠ .literal) :
    kindOutsideComment (t ++ ws) = kindOutsideComment t := by
  have htraits := traits_white hw t
  have huse : isUse (t ++ ws) = isUse t := hasAtRule_white (by decide) hw t
  have himport : isImport (t ++ ws) = isImport t := hasAtRule_white (by decide) hw t
  have hface : isFontFace (t ++ ws) = isFontFace t := hasAtRule_white (by decide) hw t
  have hselector : isSelector (t ++ ws) = true → isSelector t = true := by
    have hpoint := isKeyframePoint_white hw t
    have hrule : isAtRule (t ++ ws) = isAtRule t := congrArg Traits.isAtRule htraits
    simp only [isSelector, Bool.or_eq_true, hpoint, hrule]
    rintro (((h | h) | h) | h)
    · exact .inl (.inl (.inl (hasSelectorSigil_of_white hw hplus h)))
    · exact .inl (.inl (.inr (isElement_of_white hw h)))
    · exact .inl (.inr h)
    · exact .inr h
  simp only [traits, Traits.mk.injEq] at htraits
  obtain ⟨hblank, hcomment, hopens, hproperty, hvariable, -, -, -, -, -, hmixin, -, -, -, -, -, -, -,
    -, hinclude, hextend, -⟩ := htraits
  unfold kindOutsideComment at hknown ⊢
  simp only [hblank, hcomment, hopens, hproperty, hvariable, huse, himport, hmixin, hinclude, hextend,
    hface] at hknown ⊢
  -- only the last of the checks can fail where it held before
  have hlast : ∀ {p : Prop} [Decidable p] {a b b' : LineKind}, (if p then a else b) ≠ .literal →
      (b ≠ .literal → b = b') → (if p then a else b) = if p then a else b' := by
    intro p _ a b b' hne hb
    split at hne
    · rw [if_pos ‹_›, if_pos ‹_›]
    · rw [if_neg ‹_›, if_neg ‹_›, hb hne]
  iterate 11 refine hlast hknown fun hknown => ?_
  split at hknown
  · rename_i hs
    rw [if_pos hs, if_pos (hselector hs)]
  · exact absurd rfl hknown

end Line

end IndentedSass
