/-
  The space after the colon of a declaration.

  A declaration whose colon directly follows its name, and is directly followed by its
  value, gets a space between them.  That changes nothing in what the formatter sees of
  the line.

  * `missingSpace?_spec`: the parts of a line that lacks the space;
  * `hasSpaceAfterColon_blanks`, `hasSpaceAfterColon_white`: whether it is missing does
    not depend on the ends of the line;
  * `traits_named`: the traits of a line that begins with a name and a colon;
  * `traits_spaceAfterColon`: a declaration keeps its traits.
-/
import Mathlib
import IndentedSass.Proofs.Line.Traits

namespace IndentedSass.Line

/-- A character of the name before the colon. -/
def isNamePart (c : Char) : Bool := c == '$' || isNameChar c

theorem isNamePart_of_isWhite {c : Char} (h : isWhite c = true) : isNamePart c = false := by
  have hne : c ≠ '$' := (ne_of_isWhite (by decide) h).symm
  rw [isNamePart, isNameChar_of_isWhite h, Bool.or_false, beq_eq_false_iff_ne]
  exact hne

theorem ne_of_isNamePart {a c : Char} (ha : isNamePart a = false) (hc : isNamePart c = true) :
    c ≠ a := by
  rintro rfl
  rw [hc] at ha
  cases ha

theorem isQuiet_of_isNamePart {c : Char} (h : isNamePart c = true) : isQuiet c = true := by
  by_contra hc
  simp only [isQuiet, List.contains_eq_mem, List.mem_cons, List.not_mem_nil, or_false,
    Bool.not_eq_true', decide_eq_false_iff_not, not_not] at hc
  rcases hc with rfl | rfl | rfl | rfl | rfl | rfl | rfl | rfl | rfl <;> exact absurd h (by decide)

/-! ## The missing space -/

/-- Whether a text has the space behind its name and colon. -/
def spaceFollows (body : Text) : Bool :=
  match body.takeWhile isNamePart, body.dropWhile isNamePart with
  | _ :: _, ':' :: c :: _ => isWhite c
  | _, _ => true

theorem hasSpaceAfterColon_eq (line : Text) : hasSpaceAfterColon line = spaceFollows line.body := by
  unfold hasSpaceAfterColon missingSpace? spaceFollows
  simp only [show (fun c => c == '$' || isNameChar c) = isNamePart from rfl]
  cases line.body.takeWhile isNamePart with
  | nil => rfl
  | cons a name =>
    rcases line.body.dropWhile isNamePart with _ | ⟨d, _ | ⟨c, rest⟩⟩
    · rfl
    · by_cases hd : d = ':' <;> simp [hd]
    · by_cases hd : d = ':'
      · subst hd
        by_cases hc : isWhite c = true <;> simp [hc]
      · simp [hd]

/-- The parts of a line that lacks the space. -/
theorem missingSpace?_spec {line head value : Text} (h : missingSpace? line = some (head, value)) :
    ∃ name c rest, name ≠ [] ∧ (∀ d ∈ name, isNamePart d = true) ∧ isWhite c = false ∧
      line.body = name ++ ':' :: c :: rest ∧ head = line.blanks ++ name ++ [':'] ∧
      value = c :: rest := by
  unfold missingSpace? at h
  simp only [show (fun c => c == '$' || isNameChar c) = isNamePart from rfl] at h
  split at h
  · rename_i a name c rest hname hcolon
    split at h
    · cases h
    · rename_i hwhite
      cases h
      refine ⟨a :: name, c, rest, by simp, ?_, by simpa using hwhite, ?_, ?_, rfl⟩
      · intro d hd
        rw [← hname] at hd
        exact List.mem_takeWhile_imp hd
      · rw [← hname, ← hcolon, List.takeWhile_append_dropWhile]
      · simp
  · cases h

theorem hasSpaceAfterColon_blanks {pre : Text} (h : Blanks pre) (t : Text) :
    hasSpaceAfterColon (pre ++ t) = hasSpaceAfterColon t := by
  rw [hasSpaceAfterColon_eq, hasSpaceAfterColon_eq, Text.body_blanks h]

theorem hasSpaceAfterColon_white {ws : Text} (hw : White ws) (t : Text) :
    hasSpaceAfterColon (t ++ ws) = hasSpaceAfterColon t := by
  rw [hasSpaceAfterColon_eq, hasSpaceAfterColon_eq]
  refine body_white_congr spaceFollows (fun t ws hw => ?_) hw t
  unfold spaceFollows
  rw [Text.takeWhile_white (fun _ => isNamePart_of_isWhite) hw,
    Text.dropWhile_white (fun _ => isNamePart_of_isWhite) hw]
  cases t.takeWhile isNamePart with
  | nil => rfl
  | cons a name =>
    match t.dropWhile isNamePart, ws with
    | [], [] => rfl
    | [], d :: ws =>
      have hd : d ≠ ':' := White.head_ne (by decide) hw
      simp [hd]
    | [d], [] => rfl
    | [d], e :: ws =>
      by_cases hd : d = ':'
      · subst hd
        exact hw e (List.mem_cons_self ..)
      · simp [hd]
    | d :: e :: rest, ws =>
      by_cases hd : d = ':'
      · subst hd
        rfl
      · simp [hd]

/-! ## Lines that begin with a name and a colon -/

section Named

variable {name : Text} (hne : name ≠ []) (hname : ∀ c ∈ name, isNamePart c = true)

theorem takeWhile_colon {p : Char → Bool} (hp : p ':' = false) (n v : Text) :
    (n ++ ':' :: v).takeWhile p = n.takeWhile p := by
  induction n with
  | nil => rw [List.nil_append, List.takeWhile_cons_of_neg (by simp [hp])]; rfl
  | cons c n ih => simp only [List.cons_append, List.takeWhile_cons, ih]

theorem dropWhile_colon {p : Char → Bool} (hp : p ':' = false) (n v : Text) :
    (n ++ ':' :: v).dropWhile p = n.dropWhile p ++ ':' :: v := by
  induction n with
  | nil => rw [List.nil_append, List.dropWhile_cons_of_neg (by simp [hp])]; rfl
  | cons c n ih =>
    simp only [List.cons_append, List.dropWhile_cons, ih]
    split <;> rfl

/-- A word is not found beyond the colon. -/
theorem startsWithWord_colon {w : String} (hw : ':' ∉ w.toList) (n v v' : Text) :
    startsWithWord w (n ++ ':' :: v) = startsWithWord w (n ++ ':' :: v') := by
  have hcut : ∀ (q n v : Text), ':' ∉ q →
      Text.dropPrefix? q (n ++ ':' :: v) = (Text.dropPrefix? q n).map (· ++ ':' :: v) := by
    intro q
    induction q with
    | nil => intro n v _; rfl
    | cons a q ih =>
      intro n v hq
      obtain ⟨ha, hq⟩ : ':' ≠ a ∧ ':' ∉ q := by simpa using hq
      cases n with
      | nil => simp [Text.dropPrefix?, Ne.symm ha]
      | cons c n =>
        simp only [List.cons_append, Text.dropPrefix?]
        split
        · exact ih n v hq
        · rfl
  unfold startsWithWord
  rw [hcut _ n v hw, hcut _ n v' hw]
  cases Text.dropPrefix? w.toList n with
  | none => rfl
  | some rest => cases rest <;> rfl

include hname in
theorem startsWithPercentage_named (v : Text) : startsWithPercentage (name ++ ':' :: v) = false := by
  unfold startsWithPercentage
  rw [takeWhile_colon (by decide), dropWhile_colon (by decide)]
  cases name.takeWhile isDigit with
  | nil => rfl
  | cons a digits =>
    cases hd : name.dropWhile isDigit with
    | nil => rfl
    | cons d rest =>
      have hmem : d ∈ name := List.dropWhile_subset _ (hd ▸ List.mem_cons_self ..)
      have hpercent : d ≠ '%' := ne_of_isNamePart (by decide) (hname d hmem)
      have hpoint : d ≠ '.' := ne_of_isNamePart (by decide) (hname d hmem)
      simp [hpercent, hpoint]

/-- The name of a declaration ends at the colon, or it is none. -/
theorem nameAndColon?_colon (n v : Text) (hn : ∀ c ∈ n, isNamePart c = true) :
    nameAndColon? (n ++ ':' :: v) =
      if n ≠ [] ∧ n.dropWhile isNameChar = [] then some (n, v) else none := by
  unfold nameAndColon?
  rw [takeWhile_colon (by decide), dropWhile_colon (by decide)]
  have hsplit := List.takeWhile_append_dropWhile (p := isNameChar) (l := n)
  cases hd : n.dropWhile isNameChar with
  | nil =>
    rw [hd, List.append_nil] at hsplit
    rw [hsplit]
    cases n with
    | nil => rfl
    | cons a n => rfl
  | cons d rest =>
    -- the name is followed by a character that is neither a blank nor the colon
    have hmem : d ∈ n := List.dropWhile_subset _ (hd ▸ List.mem_cons_self ..)
    have hblank : isBlank d = false := by
      refine Bool.eq_false_iff.2 fun hb => ?_
      have hwhite := isNamePart_of_isWhite (isWhite_of_isBlank hb)
      rw [hn d hmem] at hwhite
      cases hwhite
    have hcolon : d ≠ ':' := ne_of_isNamePart (by decide) (hn d hmem)
    rw [if_neg (by simp)]
    cases n.takeWhile isNameChar with
    | nil => rfl
    | cons a name => simp [Text.body, hblank, hcolon]

include hne hname in
theorem body_named (v : Text) : Text.body (name ++ ':' :: v) = name ++ ':' :: v := by
  obtain ⟨a, rest, rfl⟩ := List.exists_cons_of_ne_nil hne
  have hblank : isBlank a = false := by
    refine Bool.eq_false_iff.2 fun hb => ?_
    have hwhite := isNamePart_of_isWhite (isWhite_of_isBlank hb)
    rw [hname a (List.mem_cons_self ..)] at hwhite
    cases hwhite
  rw [Text.body, List.cons_append, List.dropWhile_cons_of_neg (by simp [hblank])]

include hne hname in
theorem trim_named (v : Text) : ∃ v', Text.trim (name ++ ':' :: v) = name ++ ':' :: v' := by
  have hstart : Text.trimStart (name ++ ':' :: v) = name ++ ':' :: v := by
    obtain ⟨a, rest, rfl⟩ := List.exists_cons_of_ne_nil hne
    have hwhite : isWhite a = false := by
      refine Bool.eq_false_iff.2 fun hw => ?_
      have hpart := isNamePart_of_isWhite hw
      rw [hname a (List.mem_cons_self ..)] at hpart
      cases hpart
    rw [Text.trimStart, List.cons_append, List.dropWhile_cons_of_neg (by simp [hwhite])]
  obtain ⟨ws, hw, hv⟩ := Text.exists_white v
  refine ⟨v.trimEnd, ?_⟩
  have hsplit : name ++ ':' :: v = (name ++ ':' :: v.trimEnd) ++ ws := by
    rw [List.append_assoc, List.cons_append, ← hv]
  rw [Text.trim, hstart, hsplit, Text.trimEnd_white hw]
  refine Text.trimEnd_eq_self fun c hc => ?_
  rw [List.getLast?_append_of_ne_nil _ (by simp)] at hc
  cases ht : v.trimEnd with
  | nil =>
    rw [ht] at hc
    cases hc
    rfl
  | cons d rest =>
    refine Text.getLast?_trimEnd v c ?_
    rw [ht] at hc ⊢
    rwa [List.getLast?_cons_cons] at hc

include hne hname in
theorem isElement_named (v : Text) :
    isElement (Text.trim (name ++ ':' :: v)) = isElementName name := by
  obtain ⟨v', hv⟩ := trim_named hne hname v
  have htake : name.takeWhile (fun c => !endsElement c) = name := by
    refine List.takeWhile_eq_self_iff.2 fun c hc => ?_
    have hall : ("\t ,.#:[>+~)".toList.all fun d => !isNamePart d) = true := by decide
    have hends : endsElement c = false := by
      refine Bool.eq_false_iff.2 fun h => ?_
      have hpart := List.all_eq_true.1 hall c (List.contains_iff_mem.1 h)
      rw [hname c hc] at hpart
      cases hpart
    rw [hends]
    rfl
  rw [isElement, hv, body_named hne hname, takeWhile_colon (by decide), htake]

include hname in
theorem isVariable_named (v v' : Text) :
    isVariable (name ++ ':' :: v) = isVariable (name ++ ':' :: v') := by
  by_cases hne : name = []
  · subst hne
    rfl
  have hsome : ∀ (n v v' : Text) (f : Text × Text → Text × Text), (∀ c ∈ n, isNamePart c = true) →
      ((nameAndColon? (n ++ ':' :: v)).map f).isSome =
        ((nameAndColon? (n ++ ':' :: v')).map f).isSome := by
    intro n v v' f hn
    rw [nameAndColon?_colon n v hn, nameAndColon?_colon n v' hn]
    split <;> rfl
  unfold isVariable variableName?
  rw [body_named hne hname, body_named hne hname]
  obtain ⟨a, n, rfl⟩ := List.exists_cons_of_ne_nil hne
  have hn : ∀ c ∈ n, isNamePart c = true := fun c hc => hname c (List.mem_cons_of_mem a hc)
  by_cases hdollar : a = '$'
  · subst hdollar
    exact hsome n v v' _ hn
  by_cases hhyphen : a = '-'
  · subst hhyphen
    cases n with
    | nil => rfl
    | cons b n =>
      by_cases hb : b = '-'
      · subst hb
        exact hsome n v v' _ fun c hc => hn c (List.mem_cons_of_mem '-' hc)
      · simp [hb]
  · simp [hdollar, hhyphen]

include hne hname in
/-- The value after a name and a colon decides on two traits only. -/
theorem traits_named {v v' : Text}
    (hproperty : isProperty (name ++ ':' :: v) = isProperty (name ++ ':' :: v'))
    (hbraces : isBraceSyntax (name ++ ':' :: v) false = isBraceSyntax (name ++ ':' :: v') false) :
    traits (name ++ ':' :: v) = traits (name ++ ':' :: v') := by
  have hblank : ∀ v, isBlankLine (name ++ ':' :: v) = false := by
    intro v
    obtain ⟨v', hv⟩ := trim_named hne hname v
    rw [isBlankLine, Text.isAllWhite, hv]
    simp
  have hpoint : ∀ v v', isKeyframePoint (name ++ ':' :: v) = isKeyframePoint (name ++ ':' :: v') := by
    intro v v'
    rw [isKeyframePoint, hasKeyword, hasKeyword, body_named hne hname,
      startsWithPercentage_named hname, startsWithWord_colon (by decide) name v v',
      startsWithWord_colon (by decide) name v v', isKeyframePoint, hasKeyword, hasKeyword,
      body_named hne hname, startsWithPercentage_named hname]
  have hbody := body_named hne hname
  have hvariable := isVariable_named hname v v'
  have helement := isElement_named hne hname
  -- the other traits are told by the first character
  obtain ⟨a, n, rfl⟩ := List.exists_cons_of_ne_nil hne
  have ha := hname a (List.mem_cons_self ..)
  have hat : a ≠ '@' := ne_of_isNamePart (by decide) ha
  have hslash : a ≠ '/' := ne_of_isNamePart (by decide) ha
  have hplus : a ≠ '+' := ne_of_isNamePart (by decide) ha
  have hcolon : a ≠ ':' := ne_of_isNamePart (by decide) ha
  have hbracket : a ≠ '[' := ne_of_isNamePart (by decide) ha
  have hrule : ∀ words v, hasAtRule words (a :: n ++ ':' :: v) = false := by
    intro words v
    rw [hasAtRule, hbody]
    simp [hat]
  have hhead : ∀ p v, headIs p (a :: n ++ ':' :: v) = p a := by
    intro p v
    rw [headIs, hbody]
    rfl
  have hcomment : ∀ v, isLineComment (a :: n ++ ':' :: v) = false := by
    intro v
    rw [isLineComment, hbody]
    simp [Text.startsWith, Text.dropPrefix?, Ne.symm hslash]
  have hopens : ∀ v, opensBlockComment (a :: n ++ ':' :: v) = false := by
    intro v
    rw [opensBlockComment, hbody]
    simp [Text.startsWith, Text.dropPrefix?, Ne.symm hslash]
  have hkeyframes : ∀ v, isKeyframes (a :: n ++ ':' :: v) = false := by
    intro v
    rw [isKeyframes, hbody]
    simp [hat]
  have hpseudo : ∀ v, isPseudo (a :: n ++ ':' :: v) = false := by
    intro v
    rw [isPseudo, hbody]
    simp [hcolon]
  have hattribute : ∀ v, isAttribute (a :: n ++ ':' :: v) = false := by
    intro v
    rw [isAttribute, hbody]
    simp [hbracket]
  have hinclude : ∀ v, isInclude (a :: n ++ ':' :: v) = false := by
    intro v
    rw [isInclude, hrule, hbody]
    simp [hplus]
  simp only [traits, hblank, hcomment, hopens, hproperty, hvariable, hkeyframes, hpoint v v',
    isIfOrElse, isElse, hrule, isClassOrId, isMixin, hhead, helement, isStar, isParentRef, hpseudo,
    hattribute, isBlockAtRule, isStatementAtRule, isAtRule, hinclude, isExtend, hbraces]

end Named

/-! ## Declarations -/

/-- What the space does to a line that lacks it. -/
theorem spaceAfterColon_spec {line : Text} (h : hasSpaceAfterColon line = false) :
    ∃ name c rest, name ≠ [] ∧ (∀ d ∈ name, isNamePart d = true) ∧ isWhite c = false ∧
      line.body = name ++ ':' :: c :: rest ∧
      spaceAfterColon line = line.blanks ++ (name ++ ':' :: ' ' :: c :: rest) := by
  cases hm : missingSpace? line with
  | none =>
    rw [hasSpaceAfterColon, hm] at h
    cases h
  | some parts =>
    obtain ⟨head, value⟩ := parts
    obtain ⟨name, c, rest, hne, hname, hc, hbody, rfl, rfl⟩ := missingSpace?_spec hm
    refine ⟨name, c, rest, hne, hname, hc, hbody, ?_⟩
    simp [spaceAfterColon, hm]

theorem spaceAfterColon_of_hasSpace {line : Text} (h : hasSpaceAfterColon line = true) :
    spaceAfterColon line = line := by
  rw [hasSpaceAfterColon, Option.isNone_iff_eq_none] at h
  rw [spaceAfterColon, h]

/-- The space is put behind the indentation. -/
theorem width_spaceAfterColon (tab : Nat) (line : Text) :
    Indent.width tab (spaceAfterColon line) = Indent.width tab line := by
  cases h : hasSpaceAfterColon line with
  | true => rw [spaceAfterColon_of_hasSpace h]
  | false =>
    obtain ⟨name, c, rest, hne, -, -, hbody, hspaced⟩ := spaceAfterColon_spec h
    obtain ⟨a, n, rfl⟩ := List.exists_cons_of_ne_nil hne
    have hline := line.blanks_append_body
    rw [hbody] at hline
    rw [hspaced]
    conv_rhs => rw [← hline]
    exact width_congr (isBlank_head_body hbody) _ _ _

/-- The space is put before the last character. -/
theorem getLast?_spaceAfterColon (line : Text) :
    (spaceAfterColon line).getLast? = line.getLast? := by
  cases h : hasSpaceAfterColon line with
  | true => rw [spaceAfterColon_of_hasSpace h]
  | false =>
    obtain ⟨name, c, rest, -, -, -, hbody, hspaced⟩ := spaceAfterColon_spec h
    have hline := line.blanks_append_body
    rw [hbody] at hline
    have hlast : ∀ x : Text, (x ++ c :: rest).getLast? = (c :: rest).getLast? :=
      fun x => List.getLast?_append_of_ne_nil x (by simp)
    have hfirst := hlast (line.blanks ++ (name ++ [':']))
    have hsecond := hlast (line.blanks ++ (name ++ [':', ' ']))
    rw [List.append_assoc, List.append_assoc] at hfirst hsecond
    rw [hspaced]
    conv_rhs => rw [← hline]
    exact hsecond.trans hfirst.symm

/-- The space is there when it has been put. -/
theorem hasSpaceAfterColon_spaceAfterColon (line : Text) :
    hasSpaceAfterColon (spaceAfterColon line) = true := by
  cases h : hasSpaceAfterColon line with
  | true => rwa [spaceAfterColon_of_hasSpace h]
  | false =>
    obtain ⟨name, c, rest, hne, hname, -, -, hspaced⟩ := spaceAfterColon_spec h
    have htake : name.takeWhile isNamePart = name := List.takeWhile_eq_self_iff.2 hname
    have hdrop : name.dropWhile isNamePart = [] := List.dropWhile_eq_nil_iff.2 hname
    obtain ⟨a, n, rfl⟩ := List.exists_cons_of_ne_nil hne
    rw [hspaced, hasSpaceAfterColon_blanks line.blanks_blanks,
      hasSpaceAfterColon_eq, body_named hne hname, spaceFollows, takeWhile_colon (by decide),
      dropWhile_colon (by decide), htake, hdrop]
    rfl

/-- A declaration is a property with the space if it is one without. -/
theorem isProperty_spaced {name v : Text} (hne : name ≠ [])
    (hname : ∀ c ∈ name, isNamePart c = true)
    (hd : (isProperty (name ++ ':' :: v) || isVariable (name ++ ':' :: v)) = true) :
    isProperty (name ++ ':' :: ' ' :: v) = isProperty (name ++ ':' :: v) := by
  have heq : ∀ v, isProperty (name ++ ':' :: v) = if name.dropWhile isNameChar = [] then
      !Text.startsWith name ['-', '-'] && !isElementWithPseudo name v else false := by
    intro v
    rw [isProperty, plainName?, body_named hne hname, nameAndColon?_colon name v hname]
    by_cases hall : name.dropWhile isNameChar = []
    · rw [if_pos ⟨hne, hall⟩, if_pos hall]
    · rw [if_neg fun h => hall h.2, if_neg hall]
  have hpseudo : isElementWithPseudo name (' ' :: v) = false := by
    have hnone : isPseudoName [] = false := by decide
    have htake : (' ' :: v).takeWhile (fun c => c.isAlphanum || c == '-') = [] :=
      List.takeWhile_cons_of_neg (by decide)
    show (isElementName name && isPseudoName ((' ' :: v).takeWhile _)) = false
    rw [htake, hnone, Bool.and_false]
  rcases Bool.or_eq_true_iff.1 hd with hproperty | hvariable
  · rw [hproperty]
    rw [heq] at hproperty ⊢
    split at hproperty
    · rename_i hall
      rw [Bool.and_eq_true] at hproperty
      rw [if_pos hall, hproperty.1, hpseudo]
      rfl
    · cases hproperty
  · -- a variable begins with a sigil, which no property does
    have hsigil : name.dropWhile isNameChar = [] → Text.startsWith name ['-', '-'] = true := by
      intro hall
      rw [isVariable, variableName?, body_named hne hname] at hvariable
      obtain ⟨a, n, rfl⟩ := List.exists_cons_of_ne_nil hne
      have hdollar : a ≠ '$' := by
        rintro rfl
        exact absurd (List.dropWhile_eq_nil_iff.1 hall '$' (List.mem_cons_self ..)) (by decide)
      by_cases hhyphen : a = '-'
      · subst hhyphen
        cases n with
        | nil => cases hvariable
        | cons b n =>
          by_cases hb : b = '-'
          · subst hb
            rfl
          · simp [hb] at hvariable
      · simp [hdollar, hhyphen] at hvariable
    rw [heq, heq]
    split
    · rename_i hall
      rw [hsigil hall]
      rfl
    · rfl

/-- A declaration keeps its traits when the space after its colon is put. -/
theorem traits_spaceAfterColon {line : Text} (hd : (isProperty line || isVariable line) = true) :
    traits (spaceAfterColon line) = traits line := by
  cases h : hasSpaceAfterColon line with
  | true => rw [spaceAfterColon_of_hasSpace h]
  | false =>
    obtain ⟨name, c, rest, hne, hname, -, hbody, hspaced⟩ := spaceAfterColon_spec h
    have hblanks := line.blanks_blanks
    have hline : traits line = traits (name ++ ':' :: c :: rest) := by
      rw [← hbody, ← traits_blanks hblanks line.body, Text.blanks_append_body]
    rw [hspaced, traits_blanks hblanks, hline]
    rw [show isProperty line = _ from congrArg Traits.isProperty hline,
      show isVariable line = _ from congrArg Traits.isVariable hline] at hd
    refine traits_named hne hname (isProperty_spaced hne hname hd) ?_
    · have hquiet : ∀ d ∈ name ++ [':'], isQuiet d = true := by
        intro d hd
        rcases List.mem_append.1 hd with hd | hd
        · exact isQuiet_of_isNamePart (hname d hd)
        · rw [List.mem_singleton.1 hd]
          decide
      have hblank : ∀ d ∈ [' '], isQuiet d = true := by
        intro d hd
        rw [List.mem_singleton.1 hd]
        decide
      have hspace := isBraceSyntax_quiet hblank (c :: rest)
      have hfirst := isBraceSyntax_quiet hquiet (' ' :: c :: rest)
      have hsecond := isBraceSyntax_quiet hquiet (c :: rest)
      rw [List.append_assoc] at hfirst hsecond
      exact hfirst.trans (hspace.trans hsecond.symm)

end IndentedSass.Line
