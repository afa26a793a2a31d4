/-
  Fragments of brace syntax.

  A `Fragment` holds strings, parentheses and interpolations that are closed.  The scans of the
  conversion see it differently: one counts the brace of an interpolation as the brace of a block,
  another keeps the depth of parentheses, each has its own strings.  They agree in that they pass
  over all of it.

  * `splitCommentFrom_fragment`: no fragment begins a comment;
  * `Opens.fragment`: no fragment opens a block;
  * `splitClose_fragment`: no fragment closes the block that it stands in;
  * `splitRule_fragment`: no fragment ends a declaration or a header.
-/
import Mathlib
import IndentedSass.Proofs.Format.Braces
import IndentedSass.Proofs.Line.Quotes

namespace IndentedSass

/-! ## Fragments -/

/-- A character of parentheses, without those that are matched with others. -/
def isInner (c : Char) : Bool :=
  !isQuoteMark c && !List.contains ['(', ')', '\x7b', '\x7d', '\\'] c

/-- A character outside of parentheses, without those that are matched with others. -/
def isBare (c : Char) : Bool := isInner c && c != ';'

/-- The inside of parentheses: no strings, and parentheses that match. -/
inductive Balanced : Text → Prop where
  /-- Nothing. -/
  | nil : Balanced []
  /-- A character that is matched with no other one. -/
  | char {c : Char} {t : Text} : isInner c = true → Balanced t → Balanced (c :: t)
  /-- Parentheses. -/
  | parens {s t : Text} : Balanced s → Balanced t → Balanced ('(' :: s ++ ')' :: t)

/-- Strings, parentheses and interpolations that are closed, and characters around them; no two
    slashes begin a comment. -/
inductive Fragment : Text → Prop where
  /-- Nothing. -/
  | nil : Fragment []
  /-- A character that is matched with no other one, and begins no comment. -/
  | char {c : Char} {t : Text} : isBare c = true → (c = '/' → t.head? ≠ some '/') →
      Fragment t → Fragment (c :: t)
  /-- The interpolation of a name. -/
  | interpolation {name t : Text} : (∀ c ∈ name, isBare c = true ∧ c ≠ '/') →
      Fragment t → Fragment ('#' :: '\x7b' :: name ++ '\x7d' :: t)
  /-- A string without backslashes. -/
  | string {mark : Char} {s t : Text} : isQuoteMark mark = true → mark ∉ s → '\\' ∉ s →
      Fragment t → Fragment (mark :: s ++ mark :: t)
  /-- Parentheses that match. -/
  | parens {s t : Text} : Balanced s → Fragment t → Fragment ('(' :: s ++ ')' :: t)

/-- A text without strings and braces. -/
def Braceless (t : Text) : Prop := ∀ c ∈ t, isQuoteMark c = false ∧ c ≠ '\x7b' ∧ c ≠ '\x7d'

/-- What may stand behind a fragment: nothing that could go on with its last character. -/
def Ends (u : Text) : Prop := u.head? ≠ some '\x7b' ∧ u.head? ≠ some '/'

variable {c mark : Char} {s t u : Text}

theorem isInner_iff : isInner c = true ↔
    isQuoteMark c = false ∧ c ≠ '(' ∧ c ≠ ')' ∧ c ≠ '\x7b' ∧ c ≠ '\x7d' ∧ c ≠ '\\' := by
  simp [isInner]

theorem isBare_iff : isBare c = true ↔ isInner c = true ∧ c ≠ ';' := by
  simp [isBare]

/-- There are no strings and braces in parentheses. -/
theorem Balanced.braceless (h : Balanced t) : Braceless t := by
  induction h with
  | nil => exact fun c hc => absurd hc List.not_mem_nil
  | char hinner _ ih =>
    obtain ⟨hmark, -, -, hopen, hclose, -⟩ := isInner_iff.1 hinner
    exact List.forall_mem_cons.2 ⟨⟨hmark, hopen, hclose⟩, ih⟩
  | parens _ _ ihs iht =>
    exact List.forall_mem_append.2
      ⟨List.forall_mem_cons.2 ⟨by decide, ihs⟩, List.forall_mem_cons.2 ⟨by decide, iht⟩⟩

theorem braceless_of_isBare (h : ∀ c ∈ t, isBare c = true) : Braceless t := by
  intro c hc
  obtain ⟨hmark, -, -, hopen, hclose, -⟩ := isInner_iff.1 (isBare_iff.1 (h c hc)).1
  exact ⟨hmark, hopen, hclose⟩

/-- Characters that are matched with no others may stand before a fragment. -/
theorem Fragment.bare (h : Fragment t) (hs : (s.all fun c => isBare c && c != '/') = true) :
    Fragment (s ++ t) := by
  induction s with
  | nil => exact h
  | cons c s ih =>
    rw [List.all_cons, Bool.and_eq_true, Bool.and_eq_true, bne_iff_ne] at hs
    exact .char hs.1.1 (fun hc => absurd hc hs.1.2) (ih hs.2)

/-- No fragment begins with the brace of a block. -/
theorem Fragment.head?_append (h : Fragment t) (hu : u.head? ≠ some '\x7b') :
    (t ++ u).head? ≠ some '\x7b' := by
  cases h with
  | nil => exact hu
  | char hplain _ _ =>
    obtain ⟨hinner, -⟩ := isBare_iff.1 hplain
    obtain ⟨-, -, -, hopen, -⟩ := isInner_iff.1 hinner
    simpa using hopen
  | interpolation _ _ => simp
  | string hmark _ _ _ => rcases isQuoteMark_iff.1 hmark with rfl | rfl <;> simp
  | parens _ _ => simp

/-! ## Passing over a fragment -/

/-- A text put before the first of two parts. -/
def prepend (t : Text) (parts : Text × Text) : Text × Text := (t ++ parts.1, parts.2)

theorem prepend_append (s t : Text) (parts : Text × Text) :
    prepend (s ++ t) parts = prepend s (prepend t parts) := by
  simp [prepend]

variable {depth : Nat}

theorem Fragment.interpolation_append (name t u : Text) :
    '#' :: '\x7b' :: name ++ '\x7d' :: t ++ u = '#' :: '\x7b' :: (name ++ '\x7d' :: (t ++ u)) := by
  simp

theorem Fragment.string_append (mark : Char) (s t u : Text) :
    mark :: s ++ mark :: t ++ u = mark :: (s ++ [mark] ++ (t ++ u)) := by
  simp

theorem Fragment.enclosed_append (first last : Char) (s t u : Text) :
    first :: s ++ last :: t ++ u = first :: (s ++ last :: (t ++ u)) := by
  simp

/-! ### Comments -/

namespace Line

theorem splitCommentFrom_inside (mark : Char) (escaped : Bool) (depth : Nat) (c : Char) (u : Text) :
    splitCommentFrom (.inside mark escaped) depth (c :: u) =
      prepend [c] (splitCommentFrom (Quote.step .adjacent (.inside mark escaped) c) depth u) := rfl

theorem splitCommentFrom_outside (h : depth = 0 → c = '/' → u.head? ≠ some '/') :
    splitCommentFrom .outside depth (c :: u) =
      prepend [c] (splitCommentFrom (Quote.step .adjacent .outside c)
        (parenDepth .outside depth c) u) := by
  rw [splitCommentFrom, if_neg]
  · rfl
  · simp only [Bool.and_eq_true, beq_iff_eq]
    exact fun hcut => h hcut.1.1.2 hcut.1.2 hcut.2

theorem splitCommentFrom_char (hmark : isQuoteMark c = false) (hopen : c ≠ '(') (hclose : c ≠ ')')
    (h : depth = 0 → c = '/' → u.head? ≠ some '/') :
    splitCommentFrom .outside depth (c :: u) = prepend [c] (splitCommentFrom .outside depth u) := by
  have hdepth : parenDepth .outside depth c = depth := by simp [parenDepth, Quote.isOutside, *]
  rw [splitCommentFrom_outside h, Quote.step_outside .adjacent hmark, hdepth]

theorem splitCommentFrom_mark (hmark : isQuoteMark mark = true) (depth : Nat) (u : Text) :
    splitCommentFrom .outside depth (mark :: u) =
      prepend [mark] (splitCommentFrom (.inside mark false) depth u) := by
  rcases isQuoteMark_iff.1 hmark with rfl | rfl <;> exact splitCommentFrom_outside (by simp)

theorem splitCommentFrom_open (depth : Nat) (u : Text) :
    splitCommentFrom .outside depth ('(' :: u) =
      prepend ['('] (splitCommentFrom .outside (depth + 1) u) :=
  splitCommentFrom_outside (by simp)

theorem splitCommentFrom_close (depth : Nat) (u : Text) :
    splitCommentFrom .outside (depth + 1) (')' :: u) =
      prepend [')'] (splitCommentFrom .outside depth u) :=
  splitCommentFrom_outside (by simp)

theorem splitCommentFrom_string (hs : mark ∉ s) (hplain : '\\' ∉ s) (depth : Nat) (u : Text) :
    splitCommentFrom (.inside mark false) depth (s ++ [mark] ++ u) =
      prepend (s ++ [mark]) (splitCommentFrom .outside depth u) := by
  refine Quote.inside_string .adjacent (P := fun q t =>
    splitCommentFrom q depth (t ++ u) = prepend t (splitCommentFrom .outside depth u)) rfl
    (fun escaped c t h => ?_) hs hplain
  rw [List.cons_append, splitCommentFrom_inside, h]
  rfl

/-- Nothing in parentheses begins a comment. -/
theorem splitCommentFrom_balanced (h : Balanced s) (depth : Nat) (u : Text) :
    splitCommentFrom .outside (depth + 1) (s ++ u) =
      prepend s (splitCommentFrom .outside (depth + 1) u) := by
  induction h generalizing depth u with
  | nil => rfl
  | char hinner _ ih =>
    obtain ⟨hmark, hopen, hclose, -⟩ := isInner_iff.1 hinner
    rw [List.cons_append, splitCommentFrom_char hmark hopen hclose (by omega), ih]
    rfl
  | parens _ _ ihs iht =>
    rw [Fragment.enclosed_append, splitCommentFrom_open, ihs, splitCommentFrom_close, iht]
    simp [prepend]

theorem splitCommentFrom_name {name : Text} (h : ∀ c ∈ name, isBare c = true ∧ c ≠ '/') (u : Text) :
    splitCommentFrom .outside 0 (name ++ u) = prepend name (splitCommentFrom .outside 0 u) := by
  induction name with
  | nil => rfl
  | cons c name ih =>
    obtain ⟨⟨hplain, hslash⟩, hname⟩ := List.forall_mem_cons.1 h
    obtain ⟨hmark, hopen, hclose, -⟩ := isInner_iff.1 (isBare_iff.1 hplain).1
    rw [List.cons_append, splitCommentFrom_char hmark hopen hclose fun _ h => absurd h hslash,
      ih hname]
    rfl

theorem splitCommentFrom_fragment (h : Fragment t) (hu : Ends u) :
    splitCommentFrom .outside 0 (t ++ u) = prepend t (splitCommentFrom .outside 0 u) := by
  induction h with
  | nil => rfl
  | @char c t hplain hslash _ ih =>
    obtain ⟨hmark, hopen, hclose, -⟩ := isInner_iff.1 (isBare_iff.1 hplain).1
    have hnext : c = '/' → (t ++ u).head? ≠ some '/' := by
      intro hc
      cases t with
      | nil => exact hu.2
      | cons d t => exact hslash hc
    rw [List.cons_append, splitCommentFrom_char hmark hopen hclose fun _ => hnext, ih]
    rfl
  | interpolation hname _ ih =>
    rw [Fragment.interpolation_append, splitCommentFrom_char (by decide) (by decide) (by decide)
      (by simp), splitCommentFrom_char (by decide) (by decide) (by decide) (by simp),
      splitCommentFrom_name hname, splitCommentFrom_char (by decide) (by decide) (by decide)
      (by simp), ih]
    simp [prepend]
  | string hmark hs hplain _ ih =>
    rw [Fragment.string_append, splitCommentFrom_mark hmark, splitCommentFrom_string hs hplain,
      ih]
    simp [prepend]
  | parens hs _ ih =>
    rw [Fragment.enclosed_append, splitCommentFrom_open, splitCommentFrom_balanced hs,
      splitCommentFrom_close, ih]
    simp [prepend]

/-! ### Blocks -/

/-- Where a text opens its first block, whatever stands before it. -/
def Opens (u : Text) (parts : Text × Text) : Prop :=
  ∀ hash, splitBlockOpenFrom? .outside hash u = some parts

section

variable {parts : Text × Text}

theorem splitBlockOpenFrom?_inside (mark : Char) (escaped hash : Bool) (c : Char) (u : Text) :
    splitBlockOpenFrom? (.inside mark escaped) hash (c :: u) =
      (splitBlockOpenFrom? (Quote.step .adjacent (.inside mark escaped) c) (c == '#') u).map
        (prepend [c]) := rfl

theorem splitBlockOpenFrom?_outside {hash : Bool} (h : c = '\x7b' → hash = true) :
    splitBlockOpenFrom? .outside hash (c :: u) =
      (splitBlockOpenFrom? (Quote.step .adjacent .outside c) (c == '#') u).map (prepend [c]) := by
  rw [splitBlockOpenFrom?, if_neg]
  · rfl
  · simp only [Bool.and_eq_true, beq_iff_eq, Bool.not_eq_true']
    rintro ⟨⟨-, hc⟩, hhash⟩
    rw [h hc] at hhash
    cases hhash

theorem Opens.char (h : Opens u parts) (hmark : isQuoteMark c = false) (hopen : c ≠ '\x7b') :
    Opens (c :: u) (prepend [c] parts) := by
  intro hash
  rw [splitBlockOpenFrom?_outside fun hc => absurd hc hopen, Quote.step_outside .adjacent hmark, h]
  rfl

theorem Opens.braceless (h : Opens u parts) (hs : Braceless s) :
    Opens (s ++ u) (prepend s parts) := by
  induction s with
  | nil => exact h
  | cons c s ih =>
    obtain ⟨⟨hmark, hopen, -⟩, hs⟩ := List.forall_mem_cons.1 hs
    exact (ih hs).char hmark hopen

theorem Opens.string (h : Opens u parts) (hs : mark ∉ s) (hplain : '\\' ∉ s) :
    ∀ hash, splitBlockOpenFrom? (.inside mark false) hash (s ++ [mark] ++ u) =
      some (prepend (s ++ [mark]) parts) := by
  refine Quote.inside_string .adjacent (P := fun q t =>
    ∀ hash, splitBlockOpenFrom? q hash (t ++ u) = some (prepend t parts)) h
    (fun escaped c t h hash => ?_) hs hplain
  rw [List.cons_append, splitBlockOpenFrom?_inside, h]
  rfl

/-- No fragment opens a block. -/
theorem Opens.fragment (ht : Fragment t) (h : Opens u parts) :
    Opens (t ++ u) (prepend t parts) := by
  induction ht with
  | nil => exact h
  | char hplain _ _ ih =>
    obtain ⟨hmark, -, -, hopen, -⟩ := isInner_iff.1 (isBare_iff.1 hplain).1
    exact ih.char hmark hopen
  | @interpolation name t hname _ ih =>
    intro hash
    have hplain := braceless_of_isBare fun c hc => (hname c hc).1
    have hrest := (ih.char (c := '\x7d') (by decide) (by decide)).braceless hplain
    rw [Fragment.interpolation_append, splitBlockOpenFrom?_outside (by simp),
      Quote.step_outside .adjacent (by decide), splitBlockOpenFrom?_outside (by simp),
      Quote.step_outside .adjacent (by decide), hrest]
    simp [prepend]
  | @string mark s t hmark hs hplain _ ih =>
    intro hash
    have hopen : mark ≠ '\x7b' := by
      rintro rfl
      cases hmark
    rw [Fragment.string_append, splitBlockOpenFrom?_outside fun hc => absurd hc hopen,
      Quote.step_open _ hmark, ih.string hs hplain]
    simp [prepend]
  | @parens s t hs _ ih =>
    have hrest := (ih.char (c := ')') (by decide) (by decide)).braceless hs.braceless
    have hparens := hrest.char (c := '(') (by decide) (by decide)
    intro hash
    rw [Fragment.enclosed_append, hparens]
    simp [prepend]

end

end Line

/-! ### The end of a block -/

theorem splitClose_inside (mark : Char) (escaped : Bool) (depth : Nat) (c : Char) (u : Text) :
    splitClose (.inside mark escaped) depth (c :: u) =
      prepend [c] (splitClose (Quote.step .paired (.inside mark escaped) c) depth u) := rfl

theorem splitClose_outside (hopen : c ≠ '\x7b') (hclose : c ≠ '\x7d') (depth : Nat) (u : Text) :
    splitClose .outside depth (c :: u) =
      prepend [c] (splitClose (Quote.step .paired .outside c) depth u) := by
  rw [splitClose, if_neg (by decide), if_neg hopen, if_neg hclose]
  rfl

theorem splitClose_char (hmark : isQuoteMark c = false) (hopen : c ≠ '\x7b') (hclose : c ≠ '\x7d')
    (depth : Nat) (u : Text) :
    splitClose .outside depth (c :: u) = prepend [c] (splitClose .outside depth u) := by
  rw [splitClose_outside hopen hclose, Quote.step_outside .paired hmark]

theorem splitClose_mark (hmark : isQuoteMark mark = true) (depth : Nat) (u : Text) :
    splitClose .outside depth (mark :: u) =
      prepend [mark] (splitClose (.inside mark false) depth u) := by
  rcases isQuoteMark_iff.1 hmark with rfl | rfl <;>
    exact splitClose_outside (by decide) (by decide) depth u

theorem splitClose_open (depth : Nat) (u : Text) :
    splitClose .outside depth ('\x7b' :: u) =
      prepend ['\x7b'] (splitClose .outside (depth + 1) u) := rfl

theorem splitClose_close (depth : Nat) (u : Text) :
    splitClose .outside (depth + 1) ('\x7d' :: u) =
      prepend ['\x7d'] (splitClose .outside depth u) := rfl

theorem splitClose_end (u : Text) : splitClose .outside 0 ('\x7d' :: u) = ([], u) := rfl

theorem splitClose_braceless (hs : Braceless s) (depth : Nat) (u : Text) :
    splitClose .outside depth (s ++ u) = prepend s (splitClose .outside depth u) := by
  induction s with
  | nil => rfl
  | cons c s ih =>
    obtain ⟨⟨hmark, hopen, hclose⟩, hs⟩ := List.forall_mem_cons.1 hs
    rw [List.cons_append, splitClose_char hmark hopen hclose, ih hs]
    rfl

theorem splitClose_string (hs : mark ∉ s) (hplain : '\\' ∉ s) (depth : Nat) (u : Text) :
    splitClose (.inside mark false) depth (s ++ [mark] ++ u) =
      prepend (s ++ [mark]) (splitClose .outside depth u) := by
  refine Quote.inside_string .paired (P := fun q t =>
    splitClose q depth (t ++ u) = prepend t (splitClose .outside depth u)) rfl
    (fun escaped c t h => ?_) hs hplain
  rw [List.cons_append, splitClose_inside, h]
  rfl

/-- The braces of a fragment match, so they do not close the block it stands in. -/
theorem splitClose_fragment (h : Fragment t) (depth : Nat) (u : Text) :
    splitClose .outside depth (t ++ u) = prepend t (splitClose .outside depth u) := by
  induction h with
  | nil => rfl
  | char hplain _ _ ih =>
    obtain ⟨hmark, -, -, hopen, hclose, -⟩ := isInner_iff.1 (isBare_iff.1 hplain).1
    rw [List.cons_append, splitClose_char hmark hopen hclose, ih]
    rfl
  | @interpolation name t hname _ ih =>
    have hplain := braceless_of_isBare fun c hc => (hname c hc).1
    rw [Fragment.interpolation_append, splitClose_char (by decide) (by decide) (by decide),
      splitClose_open, splitClose_braceless hplain, splitClose_close, ih]
    simp [prepend]
  | string hmark hs hplain _ ih =>
    rw [Fragment.string_append, splitClose_mark hmark, splitClose_string hs hplain, ih]
    simp [prepend]
  | parens hs _ ih =>
    rw [Fragment.enclosed_append, splitClose_char (by decide) (by decide) (by decide),
      splitClose_braceless hs.braceless, splitClose_char (by decide) (by decide) (by decide), ih]
    simp [prepend]

/-! ### The lines of a rule -/

section

variable {x : Text} {p i : Nat}

theorem splitRule_inside (depth : Nat) (x : Text) (mark : Char) (escaped : Bool) (p i : Nat)
    (c : Char) (u : Text) :
    splitRule depth ⟨x, .inside mark escaped, p, i⟩ (c :: u) =
      splitRule depth ⟨x ++ [c], Quote.step .paired (.inside mark escaped) c, p, i⟩ u := by
  rw [splitRule, if_pos (by rfl)]
  rfl

/-- A character that is matched with no other one and ends nothing. -/
theorem splitRule_other (hother : c ≠ '(' ∧ c ≠ ')' ∧ c ≠ '\x7b' ∧ c ≠ '\x7d')
    (hsemicolon : c = ';' → p ≠ 0) (hhash : c = '#' → u.head? ≠ some '\x7b') :
    splitRule depth ⟨x, .outside, p, i⟩ (c :: u) =
      splitRule depth ⟨x ++ [c], Quote.step .paired .outside c, p, i⟩ u := by
  obtain ⟨hopen, hclose, hbrace, hbrace'⟩ := hother
  have hout : ¬(!Quote.outside.isOutside) = true := Bool.false_ne_true
  rw [splitRule, if_neg hout, if_neg fun h => hhash h.1 h.2, if_neg hbrace, if_neg hbrace',
    if_neg hopen, if_neg hclose, if_neg fun h => hsemicolon h.1 h.2]
  rfl

theorem splitRule_outside (hinner : isInner c = true ∨ isQuoteMark c = true)
    (hsemicolon : c = ';' → p ≠ 0) (hhash : c = '#' → u.head? ≠ some '\x7b') :
    splitRule depth ⟨x, .outside, p, i⟩ (c :: u) =
      splitRule depth ⟨x ++ [c], Quote.step .paired .outside c, p, i⟩ u := by
  refine splitRule_other ?_ hsemicolon hhash
  rcases hinner with hinner | hmark
  · obtain ⟨-, hopen, hclose, hbrace, hbrace', -⟩ := isInner_iff.1 hinner
    exact ⟨hopen, hclose, hbrace, hbrace'⟩
  · rcases isQuoteMark_iff.1 hmark with rfl | rfl <;> decide

theorem splitRule_char (hinner : isInner c = true) (hsemicolon : c = ';' → p ≠ 0)
    (hhash : c = '#' → u.head? ≠ some '\x7b') :
    splitRule depth ⟨x, .outside, p, i⟩ (c :: u) =
      splitRule depth ⟨x ++ [c], .outside, p, i⟩ u := by
  rw [splitRule_outside (.inl hinner) hsemicolon hhash,
    Quote.step_outside .paired (isInner_iff.1 hinner).1]

theorem splitRule_mark (hmark : isQuoteMark mark = true) :
    splitRule depth ⟨x, .outside, p, i⟩ (mark :: u) =
      splitRule depth ⟨x ++ [mark], .inside mark false, p, i⟩ u := by
  rcases isQuoteMark_iff.1 hmark with rfl | rfl <;>
    exact splitRule_outside (.inr hmark) (by simp) (by simp)

theorem splitRule_parenOpen :
    splitRule depth ⟨x, .outside, p, i⟩ ('(' :: u) =
      splitRule depth ⟨x ++ ['('], .outside, p + 1, i⟩ u := by
  simp [splitRule, Quote.isOutside, RuleState.keep, Quote.step, isQuoteMark]

theorem splitRule_parenClose :
    splitRule depth ⟨x, .outside, p + 1, i⟩ (')' :: u) =
      splitRule depth ⟨x ++ [')'], .outside, p, i⟩ u := by
  simp [splitRule, Quote.isOutside, RuleState.keep, Quote.step, isQuoteMark]

theorem splitRule_interpolationOpen :
    splitRule depth ⟨x, .outside, p, i⟩ ('#' :: '\x7b' :: u) =
      splitRule depth ⟨x ++ ['#', '\x7b'], .outside, p, i + 1⟩ u := by
  simp [splitRule, Quote.isOutside, RuleState.keep, Quote.step, isQuoteMark]

theorem splitRule_interpolationClose :
    splitRule depth ⟨x, .outside, p, i + 1⟩ ('\x7d' :: u) =
      splitRule depth ⟨x ++ ['\x7d'], .outside, p, i⟩ u := by
  simp [splitRule, Quote.isOutside, RuleState.keep, Quote.step, isQuoteMark]

theorem splitRule_string (hs : mark ∉ s) (hplain : '\\' ∉ s) :
    splitRule depth ⟨x, .inside mark false, p, i⟩ (s ++ [mark] ++ u) =
      splitRule depth ⟨x ++ (s ++ [mark]), .outside, p, i⟩ u := by
  refine Quote.inside_string .paired (P := fun q t => ∀ x,
    splitRule depth ⟨x, q, p, i⟩ (t ++ u) = splitRule depth ⟨x ++ t, .outside, p, i⟩ u)
    (fun x => by simp) (fun escaped c t h x => ?_) hs hplain x
  rw [List.cons_append, splitRule_inside, h]
  simp

/-- Nothing in parentheses ends a declaration. -/
theorem splitRule_balanced (h : Balanced s) (hu : u.head? ≠ some '\x7b') :
    splitRule depth ⟨x, .outside, p + 1, i⟩ (s ++ u) =
      splitRule depth ⟨x ++ s, .outside, p + 1, i⟩ u := by
  induction h generalizing x p u with
  | nil => rw [List.nil_append, List.append_nil]
  | @char c t hinner ht ih =>
    have hhead : (t ++ u).head? ≠ some '\x7b' := by
      cases t with
      | nil => exact hu
      | cons d t => simpa using (ht.braceless d (List.mem_cons_self ..)).2.1
    rw [List.cons_append, splitRule_char hinner (by simp) fun _ => hhead, ih hu]
    simp
  | parens _ _ ihs iht =>
    rw [Fragment.enclosed_append, splitRule_parenOpen, ihs (by simp), splitRule_parenClose, iht hu]
    simp

theorem splitRule_name {name : Text} (h : ∀ c ∈ name, isBare c = true)
    (hu : u.head? ≠ some '\x7b') :
    splitRule depth ⟨x, .outside, 0, i⟩ (name ++ u) =
      splitRule depth ⟨x ++ name, .outside, 0, i⟩ u := by
  induction name generalizing x with
  | nil => rw [List.nil_append, List.append_nil]
  | cons c name ih =>
    obtain ⟨hbare, hname⟩ := List.forall_mem_cons.1 h
    have hhead : (name ++ u).head? ≠ some '\x7b' := by
      cases name with
      | nil => exact hu
      | cons d name => simpa using (braceless_of_isBare hname d (List.mem_cons_self ..)).2.1
    obtain ⟨hinner, hsemicolon⟩ := isBare_iff.1 hbare
    rw [List.cons_append, splitRule_char hinner (fun h => absurd h hsemicolon) fun _ => hhead,
      ih hname]
    simp

/-- A fragment is kept as a part of the current declaration or header. -/
theorem splitRule_fragment (h : Fragment t) (hu : u.head? ≠ some '\x7b') :
    splitRule depth ⟨x, .outside, 0, 0⟩ (t ++ u) =
      splitRule depth ⟨x ++ t, .outside, 0, 0⟩ u := by
  induction h generalizing x with
  | nil => rw [List.nil_append, List.append_nil]
  | char hbare _ ht ih =>
    obtain ⟨hinner, hsemicolon⟩ := isBare_iff.1 hbare
    rw [List.cons_append, splitRule_char hinner (fun h => absurd h hsemicolon)
      fun _ => ht.head?_append hu, ih]
    simp
  | interpolation hname _ ih =>
    rw [Fragment.interpolation_append, splitRule_interpolationOpen,
      splitRule_name (fun c hc => (hname c hc).1) (by simp), splitRule_interpolationClose, ih]
    simp
  | string hmark hs hplain _ ih =>
    rw [Fragment.string_append, splitRule_mark hmark, splitRule_string hs hplain, ih]
    simp
  | parens hs _ ih =>
    rw [Fragment.enclosed_append, splitRule_parenOpen, splitRule_balanced hs (by simp),
      splitRule_parenClose, ih]
    simp

end

end IndentedSass
