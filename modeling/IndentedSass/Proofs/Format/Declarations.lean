/-
  Declarations with a semicolon.

  A declaration of brace syntax stands on a line of its own or inside a rule on one line.  The scans
  of a line and the scan of a rule differ in which backslashes keep a mark from closing a string
  (`Escape.adjacent`, `Escape.paired`), so that each may see characters of its own outside of the
  strings.

  * `Standing` is where a scan stands in a text, by either rule; it `drops` the braces and semicolons
    that are left out, and `cuts` the text where a comment begins;
  * `Text.Whole`: a scan neither drops a character of a text nor cuts it, and what was opened is
    closed at its end;
  * `splitRule_passes`: a declaration that is whole to the scan of a rule is one line of it;
  * `text_convertBraces_iff`: alone it is kept as it is when it is whole to the scans of a line;
  * `convertBraces_declaration_iff`: only then is it converted alike in both places.
-/
import Mathlib
import IndentedSass.Proofs.Format.Rules

namespace IndentedSass

/-- Where a scan stands in a text. -/
structure Standing where
  /-- With respect to strings. -/
  quote : Quote := .outside
  /-- Whether a `#` stands right before. -/
  hash : Bool := false
  /-- The depth of interpolations. -/
  interpolations : Nat := 0
  /-- The depth of parentheses. -/
  parens : Nat := 0
  deriving DecidableEq, Repr

namespace Standing

variable {rule : Escape} {s : Standing} {c : Char} {t u : Text}

/-- The depth of interpolations after the character `c`. -/
def interpolationsAfter (s : Standing) (c : Char) : Nat :=
  if !s.quote.isOutside then s.interpolations
  else if c = '\x7b' then (if s.hash then s.interpolations + 1 else s.interpolations)
  else if c = '\x7d' then s.interpolations - 1
  else s.interpolations

/-- Where a scan stands after one more character. -/
def step (rule : Escape) (s : Standing) (c : Char) : Standing :=
  ⟨s.quote.step rule c, c == '#', s.interpolationsAfter c, Line.parenDepth s.quote s.parens c⟩

/-- Where a scan stands after a text. -/
def run (rule : Escape) (s : Standing) (t : Text) : Standing := t.foldl (step rule) s

/-- Whether `c` is a brace or semicolon that is left out. -/
def drops (s : Standing) (c : Char) : Bool :=
  s.quote.isOutside && (c == '\x7b' && !s.hash || c == '\x7d' && s.interpolations == 0 ||
    c == ';' && s.parens == 0)

/-- Whether a comment begins at `c`, when `next` follows it. -/
def cuts (s : Standing) (c : Char) (next : Option Char) : Bool :=
  s.quote.isOutside && s.parens == 0 && c == '/' && next == some '/'

/-- A scan neither drops a character of a text nor cuts it. -/
def Passes (rule : Escape) : Standing → Text → Prop
  | _, [] => True
  | s, c :: cs => s.drops c = false ∧ s.cuts c cs.head? = false ∧ Passes rule (s.step rule c) cs

instance decidablePasses (rule : Escape) : ∀ s t, Decidable (Passes rule s t)
  | _, [] => isTrue trivial
  | s, c :: cs =>
    haveI := decidablePasses rule (s.step rule c) cs
    inferInstanceAs (Decidable (_ ∧ _ ∧ _))

theorem run_append (rule : Escape) (s : Standing) (t u : Text) :
    s.run rule (t ++ u) = (s.run rule t).run rule u := List.foldl_append ..

/-- Behind a semicolon that is dropped the next one is dropped. -/
theorem drops_semicolon_step (h : s.drops ';' = true) : (s.step rule ';').drops ';' = true := by
  simp only [drops, Bool.and_eq_true, Bool.or_eq_true, beq_iff_eq] at h
  obtain ⟨hout, hrest⟩ := h
  have hparens : s.parens = 0 := by simpa using hrest
  obtain ⟨q, hash, i, p⟩ := s
  obtain rfl := Quote.isOutside_iff.1 hout
  obtain rfl : p = 0 := hparens
  rfl

/-! ## Braces and semicolons -/

/-- What is left of a text without its braces and semicolons, from where a scan stands. -/
def strip (s : Standing) (t : Text) : Text :=
  stripBracesFrom s.quote s.hash s.interpolations s.parens t

theorem strip_cons (s : Standing) (c : Char) (cs : Text) :
    s.strip (c :: cs) = (if s.drops c then [] else [c]) ++ (s.step .adjacent c).strip cs := by
  obtain ⟨q, hash, i, p⟩ := s
  cases q with
  | inside mark escaped =>
    simp [strip, stripBracesFrom, drops, step, interpolationsAfter, Quote.isOutside,
      Line.parenDepth]
  | outside =>
    simp only [strip, stripBracesFrom, drops, step, interpolationsAfter, Quote.isOutside,
      Line.parenDepth]
    by_cases hopen : c = '\x7b'
    · subst hopen
      cases hash <;> simp
    by_cases hclose : c = '\x7d'
    · subst hclose
      cases i <;> simp
    by_cases hsemicolon : c = ';'
    · subst hsemicolon
      cases p <;> simp
    by_cases hparen : c = '('
    · subst hparen
      simp
    by_cases hparen' : c = ')'
    · subst hparen'
      simp
    simp [hopen, hclose, hsemicolon, hparen, hparen']

theorem strip_append (s : Standing) (t u : Text) :
    s.strip (t ++ u) = s.strip t ++ (s.run .adjacent t).strip u := by
  induction t generalizing s with
  | nil => rfl
  | cons c t ih =>
    rw [List.cons_append, strip_cons, ih, strip_cons, List.append_assoc]
    rfl

theorem length_strip_le (s : Standing) (t : Text) : (s.strip t).length ≤ t.length := by
  induction t generalizing s with
  | nil => exact Nat.le_refl 0
  | cons c t ih =>
    have hrest := ih (s.step .adjacent c)
    rw [strip_cons, List.length_append, List.length_cons]
    split <;> simp only [List.length_nil, List.length_singleton] <;> omega

theorem Passes.strip_eq (h : Passes .adjacent s t) : s.strip t = t := by
  induction t generalizing s with
  | nil => rfl
  | cons c t ih => rw [strip_cons, h.1, ih h.2.2, if_neg Bool.false_ne_true, List.singleton_append]

/-- A text that is left with a semicolon in place of one of its characters ends in semicolons that
    are dropped. -/
theorem drops_of_strip_semicolon (h : s.strip t ++ [';'] = t) :
    (s.run .adjacent t).drops ';' = true := by
  induction t using List.reverseRecOn with
  | nil => cases h
  | append_singleton e c ih =>
    obtain ⟨hfront, hlast⟩ := List.append_inj' h rfl
    cases hlast
    rw [strip_append] at hfront
    rw [run_append]
    by_cases hdrops : (s.run .adjacent e).drops ';' = true
    · exact drops_semicolon_step hdrops
    · -- the last semicolon is kept, so that the text before it is of the same kind
      have hkept : (s.run .adjacent e).strip [';'] = [';'] := by
        rw [strip_cons, if_neg hdrops]
        rfl
      rw [hkept] at hfront
      exact absurd (ih hfront) hdrops

/-! ## Comments and blocks -/

theorem splitCommentFrom_cons (s : Standing) (c : Char) (cs : Text) :
    Line.splitCommentFrom s.quote s.parens (c :: cs) =
      if s.cuts c cs.head? then ([], c :: cs)
      else prepend [c] (Line.splitCommentFrom (s.step .adjacent c).quote
        (s.step .adjacent c).parens cs) := rfl

/-- The character at the end of a text is followed by what stands behind the text. -/
theorem cuts_append (hu : u.head? ≠ some '/') (s : Standing) (c : Char) (cs : Text) :
    s.cuts c (cs ++ u).head? = s.cuts c cs.head? := by
  cases cs with
  | nil => simp [cuts, hu]
  | cons d cs => rfl

theorem Passes.splitCommentFrom_append (h : Passes .adjacent s t) (hu : u.head? ≠ some '/') :
    Line.splitCommentFrom s.quote s.parens (t ++ u) =
      prepend t (Line.splitCommentFrom (s.run .adjacent t).quote (s.run .adjacent t).parens u) := by
  induction t generalizing s with
  | nil => rfl
  | cons c t ih =>
    rw [List.cons_append, splitCommentFrom_cons, cuts_append hu, h.2.1, if_neg Bool.false_ne_true,
      ih h.2.2, ← prepend_append]
    rfl

theorem Passes.splitBlockOpenFrom?_append (h : Passes .adjacent s t) (u : Text) :
    Line.splitBlockOpenFrom? s.quote s.hash (t ++ u) =
      (Line.splitBlockOpenFrom? (s.run .adjacent t).quote (s.run .adjacent t).hash u).map
        (prepend t) := by
  induction t generalizing s with
  | nil => exact Option.map_id'.symm
  | cons c t ih =>
    have hbrace : ¬(s.quote.isOutside && c == '\x7b' && !s.hash) = true := by
      intro hopen
      have hkept := h.1
      simp only [Bool.and_eq_true] at hopen
      simp [drops, hopen] at hkept
    rw [List.cons_append, Line.splitBlockOpenFrom?, if_neg hbrace]
    refine (congrArg _ (ih h.2.2)).trans ?_
    rw [Option.map_map]
    rfl

/-- A text of which nothing is left out or cut off. -/
theorem passes_of_strip (hstrip : t.length ≤ (s.strip t).length) (hu : u.head? ≠ some '/')
    (hcomment : (Line.splitCommentFrom s.quote s.parens (t ++ u)).2 = []) :
    Passes .adjacent s t := by
  induction t generalizing s with
  | nil => trivial
  | cons c t ih =>
    have hrest := length_strip_le (s.step .adjacent c) t
    rw [strip_cons, List.length_append, List.length_cons] at hstrip
    rw [List.cons_append, splitCommentFrom_cons, cuts_append hu] at hcomment
    cases hcuts : s.cuts c t.head? with
    | true =>
      rw [hcuts, if_pos rfl] at hcomment
      cases hcomment
    | false =>
      rw [hcuts, if_neg Bool.false_ne_true] at hcomment
      cases hdrops : s.drops c with
      | true =>
        rw [hdrops, if_pos rfl, List.length_nil] at hstrip
        omega
      | false =>
        rw [hdrops, if_neg Bool.false_ne_true, List.length_singleton] at hstrip
        exact ⟨hdrops, hcuts, ih (by omega) hcomment⟩

/-! ## Rules on one line -/

variable {depth : Nat} {x : Text}

/-- A character that is not left out is kept as a part of the current declaration. -/
theorem splitRule_step (hdrops : s.drops c = false)
    (hopen : s.quote = .outside → c ≠ '\x7b')
    (hhash : s.quote = .outside → c = '#' → u.head? ≠ some '\x7b') :
    splitRule depth ⟨x, s.quote, s.parens, s.interpolations⟩ (c :: u) =
      splitRule depth ⟨x ++ [c], (s.step .paired c).quote, (s.step .paired c).parens,
        (s.step .paired c).interpolations⟩ u := by
  obtain ⟨q, hash, i, p⟩ := s
  cases q with
  | inside mark escaped => exact splitRule_inside depth x mark escaped p i c u
  | outside =>
    have hsemicolon : c = ';' → p ≠ 0 := by
      rintro rfl rfl
      simp [drops, Quote.isOutside] at hdrops
    by_cases hparen : c = '('
    · subst hparen
      exact splitRule_parenOpen
    by_cases hparen' : c = ')'
    · subst hparen'
      cases p with
      | zero => simp [splitRule, step, interpolationsAfter, Line.parenDepth, Quote.isOutside,
          RuleState.keep]
      | succ p => exact splitRule_parenClose
    by_cases hclose : c = '\x7d'
    · subst hclose
      cases i with
      | zero => simp [drops, Quote.isOutside] at hdrops
      | succ i => exact splitRule_interpolationClose
    rw [splitRule_other ⟨hparen, hparen', hopen rfl, hclose⟩ hsemicolon (hhash rfl)]
    simp [step, interpolationsAfter, Line.parenDepth, Quote.isOutside, hparen, hparen', hopen rfl,
      hclose]

/-- A text of which the scan of a rule leaves out nothing is a part of the current declaration. -/
theorem splitRule_passes (t : Text) (s : Standing) (x : Text) (h : Passes .paired s t)
    (hquote : s.quote.Proper)
    (hopen : s.hash = true → s.quote = .outside → t.head? ≠ some '\x7b')
    (hu : u.head? ≠ some '\x7b') :
    splitRule depth ⟨x, s.quote, s.parens, s.interpolations⟩ (t ++ u) =
      splitRule depth ⟨x ++ t, (s.run .paired t).quote, (s.run .paired t).parens,
        (s.run .paired t).interpolations⟩ u := by
  match t with
  | [] => rw [List.nil_append, List.append_nil]; rfl
  | c :: cs =>
    obtain ⟨hdrops, -, hcs⟩ := h
    have hnext : (s.step .paired c).quote.Proper := hquote.step
    have hbrace : s.quote = .outside → c ≠ '\x7b' := by
      rintro hout rfl
      cases hhash : s.hash with
      | true => exact hopen hhash hout rfl
      | false => simp [drops, hout, hhash, Quote.isOutside] at hdrops
    by_cases hpair : s.quote = .outside ∧ c = '#' ∧ cs.head? = some '\x7b'
    · -- the brace of an interpolation is read together with the `#` before it
      obtain ⟨hout, rfl, hhead⟩ := hpair
      obtain ⟨rest, rfl⟩ := List.head?_eq_some_iff.1 hhead
      have hopened : ((s.step .paired '#').step .paired '\x7b').hash ≠ true := Bool.false_ne_true
      have ih := splitRule_passes rest ((s.step .paired '#').step .paired '\x7b')
        (x ++ ['#', '\x7b']) hcs.2.2 hnext.step (fun hhash => absurd hhash hopened) hu
      have hstep : (s.step .paired '#').step .paired '\x7b' =
          ⟨.outside, false, s.interpolations + 1, s.parens⟩ := by
        simp [step, interpolationsAfter, Line.parenDepth, hout, Quote.isOutside, Quote.step,
          isQuoteMark]
      have hrun : s.run .paired ('#' :: '\x7b' :: rest) =
          ((s.step .paired '#').step .paired '\x7b').run .paired rest := rfl
      rw [hrun, hout, List.cons_append, List.cons_append, splitRule_interpolationOpen]
      rw [hstep] at ih ⊢
      rw [ih, List.append_assoc]
      rfl
    · have hhash : s.quote = .outside → c = '#' → (cs ++ u).head? ≠ some '\x7b' := by
        intro hout hc
        cases cs with
        | nil => exact hu
        | cons d cs => exact fun hd => hpair ⟨hout, hc, hd⟩
      have hopen' : (s.step .paired c).hash = true → (s.step .paired c).quote = .outside →
          cs.head? ≠ some '\x7b' := by
        intro hc hout hd
        have hc : c = '#' := by simpa [step] using hc
        refine hpair ⟨?_, hc, hd⟩
        subst hc
        -- no string is closed by a `#`
        cases hq : s.quote with
        | outside => rfl
        | inside mark escaped =>
          rw [hq] at hquote
          have hmark : ('#' == mark) = false := by
            refine beq_eq_false_iff_ne.2 ?_
            rintro rfl
            cases hquote
          simp [step, hq, Quote.step, hmark] at hout
      have ih := splitRule_passes cs (s.step .paired c) (x ++ [c]) hcs hnext hopen' hu
      rw [List.cons_append, splitRule_step hdrops hbrace hhash, ih, List.append_assoc]
      rfl

end Standing

/-! ## Whole texts -/

/-- A scan neither drops a character of a text nor cuts it, and the strings and parentheses opened
    in it are closed in it. -/
structure Text.Whole (rule : Escape) (d : Text) : Prop where
  passes : Standing.Passes rule {} d
  closed : (Standing.run rule {} d).quote = .outside
  parens : (Standing.run rule {} d).parens = 0

instance (rule : Escape) (d : Text) : Decidable (d.Whole rule) :=
  decidable_of_iff (Standing.Passes rule {} d ∧ (Standing.run rule {} d).quote = .outside ∧
    (Standing.run rule {} d).parens = 0) ⟨fun h => ⟨h.1, h.2.1, h.2.2⟩, fun h => ⟨h.1, h.2, h.3⟩⟩

/-- A declaration as it may stand in a rule: not empty, no white space at its ends, and strings,
    parentheses and interpolations that are closed in it, with no brace, semicolon or comment
    besides. -/
structure Text.IsDeclaration (d : Text) : Prop where
  visible : d ≠ []
  trimmed : d.trim = d
  whole : d.Whole .paired
  interpolations : (Standing.run .paired {} d).interpolations = 0

instance (d : Text) : Decidable d.IsDeclaration :=
  decidable_of_iff (d ≠ [] ∧ d.trim = d ∧ d.Whole .paired ∧
      (Standing.run .paired {} d).interpolations = 0)
    ⟨fun h => ⟨h.1, h.2.1, h.2.2.1, h.2.2.2⟩, fun h => ⟨h.1, h.2, h.3, h.4⟩⟩

variable {d : Text}

namespace Standing

/-- Where one semicolon is dropped. -/
theorem drops_semicolon_iff (s : Standing) :
    s.drops ';' = true ↔ s.quote = .outside ∧ s.parens = 0 := by
  simp [drops, Quote.isOutside_iff]

variable {s s' : Standing} {t : Text}

/-- A mark that is guarded stands behind a backslash. -/
def Behind (s : Standing) (t : Text) : Prop :=
  ∀ mark, s.quote = .inside mark true → t.head? ≠ some '\\'

/-- Without two backslashes in a row both scans take the same steps. -/
theorem run_eq_of_not_infix (hbehind : s.Behind t) (h : ¬['\\', '\\'] <:+: t) :
    s.run .paired t = s.run .adjacent t ∧ (Passes .paired s t ↔ Passes .adjacent s t) := by
  induction t generalizing s with
  | nil => exact ⟨rfl, Iff.rfl⟩
  | cons c t ih =>
    have hstep : s.step .paired c = s.step .adjacent c := by
      have hquote : s.quote.step .paired c = s.quote.step .adjacent c := by
        cases hq : s.quote with
        | outside => rfl
        | inside mark escaped =>
          cases escaped with
          | false => simp [Quote.step, Escape.guards]
          | true =>
            have hc : c ≠ '\\' := by simpa using hbehind mark hq
            simp [Quote.step, Escape.guards, hc]
      rw [step, step, hquote]
    have hnext : (s.step .paired c).Behind t := by
      intro mark hq hhead
      have hc : c = '\\' := by
        cases hs : s.quote with
        | outside =>
          rw [step, hs] at hq
          simp only [Quote.step] at hq
          split at hq <;> cases hq
        | inside mark' escaped =>
          rw [step, hs] at hq
          simp only [Quote.step] at hq
          split at hq
          · cases hq
          · simp only [Quote.inside.injEq, Escape.guards, Bool.and_eq_true, beq_iff_eq] at hq
            exact hq.2.1
      obtain ⟨rest, rfl⟩ := List.head?_eq_some_iff.1 hhead
      exact h ⟨[], rest, by rw [hc]; rfl⟩
    obtain ⟨hrun, hpasses⟩ := ih hnext fun hin => h (hin.trans (List.suffix_cons c t).isInfix)
    rw [hstep] at hrun hpasses
    refine ⟨?_, ?_⟩
    · rw [run, List.foldl_cons, hstep]
      exact hrun
    · rw [Passes, Passes, hstep, hpasses]

end Standing

/-- Without two backslashes in a row a text is whole to both scans or to none. -/
theorem Text.Whole.adjacent (h : d.Whole .paired) (hplain : ¬['\\', '\\'] <:+: d) :
    d.Whole .adjacent := by
  obtain ⟨hrun, hpasses⟩ := Standing.run_eq_of_not_infix (s := {}) nofun hplain
  exact ⟨hpasses.1 h.passes, hrun ▸ h.closed, hrun ▸ h.parens⟩

/-! ## In a rule -/

/-- There is no comment without a slash. -/
theorem Line.splitCommentFrom_of_not_mem {u : Text} (h : '/' ∉ u) (q : Quote) (depth : Nat) :
    Line.splitCommentFrom q depth u = (u, []) := by
  induction u generalizing q depth with
  | nil => rfl
  | cons c u ih =>
    rw [List.mem_cons, not_or] at h
    have hslash : (c == '/') = false := beq_eq_false_iff_ne.2 (Ne.symm h.1)
    simp only [Line.splitCommentFrom, hslash, Bool.and_false, Bool.false_and, Bool.false_eq_true,
      if_false, ih h.2]

/-- The text of a rule with one declaration. -/
def Text.inRule (d : Text) : Text := ".x \x7b ".toList ++ (d ++ "; \x7d".toList)

/-- A declaration in a rule is one line of it, when the scans of a line see no comment in it. -/
theorem lines_convertBraces_inRule (h : d.IsDeclaration)
    (hpasses : Standing.Passes .adjacent {} d) :
    (convertBraces d.inRule []).lines = [⟨1, Line.spaceAfterColon d⟩] := by
  have hcomment : (Line.splitComment d.inRule).2 = [] := by
    have hfront : Line.splitComment d.inRule = prepend ".x \x7b ".toList
      (Line.splitCommentFrom .outside 0 (d ++ "; \x7d".toList)) := rfl
    rw [hfront, hpasses.splitCommentFrom_append (by decide),
      Line.splitCommentFrom_of_not_mem (by decide)]
    rfl
  have hend : d.inRule.trimEnd = d.inRule := by
    refine Text.trimEnd_eq_self fun c hc => ?_
    change c ∈ (".x \x7b ".toList ++ (d ++ "; \x7d".toList)).getLast? at hc
    rw [List.getLast?_append_of_ne_nil _ (by simp), List.getLast?_append_of_ne_nil _ (by simp)] at hc
    cases hc
    decide
  have hopen : Line.splitBlockOpen? d.inRule = some (".x ".toList, ' ' :: (d ++ "; \x7d".toList)) :=
    rfl
  rw [← (Line.codeBody_eq_self hcomment hend rfl).2] at hopen
  have hrule : splitRule 1 { current := [' '] } (d ++ "; \x7d".toList) =
      splitRule 1 { current := ' ' :: d } "; \x7d".toList := by
    have hd : splitRule 1 { current := [' '] } (d ++ "; \x7d".toList) = _ :=
      Standing.splitRule_passes d {} [' '] h.whole.passes trivial nofun (by decide)
    rwa [h.whole.closed, h.whole.parens, h.interpolations] at hd
  have htrim : Text.trim (' ' :: d) = d := h.trimmed
  have hvisible : d.isEmpty = false := by simpa using h.visible
  have hdeclaration : RuleState.declaration { current := ' ' :: d } 1 =
      [⟨1, Line.spaceAfterColon d⟩] := by
    rw [RuleState.declaration, htrim, hvisible]
    rfl
  rw [convertBraces_of_header hopen rfl]
  calc splitRule 1 {} (' ' :: (d ++ "; \x7d".toList))
      = splitRule 1 { current := ' ' :: d } (';' :: ' ' :: '\x7d' :: []) := by
        rw [splitRule_space]
        exact hrule
    _ = [⟨1, Line.spaceAfterColon d⟩] := by
        rw [splitRule_semicolon, hdeclaration, splitRule_space, splitRule_closing, List.nil_append,
          splitRule_nil white_space, List.append_nil]

/-! ## Alone -/

theorem Text.length_trimEnd_le (t : Text) : t.trimEnd.length ≤ t.length := by
  obtain ⟨ws, -, hsplit⟩ := t.exists_white
  have hlength := congrArg List.length hsplit
  rw [List.length_append] at hlength
  omega

theorem Text.length_trim_le (t : Text) : t.trim.length ≤ t.length :=
  (Text.length_trimEnd_le _).trans (List.dropWhile_sublist isWhite).length_le

/-- A comment begins with a slash. -/
theorem Line.head?_splitCommentFrom (q : Quote) (depth : Nat) (u : Text) :
    ∀ c ∈ (Line.splitCommentFrom q depth u).2.head?, c = '/' := by
  induction u generalizing q depth with
  | nil => nofun
  | cons d u ih =>
    rw [Line.splitCommentFrom]
    split
    · rename_i hcut
      simp only [Bool.and_eq_true, beq_iff_eq] at hcut
      intro c hc
      cases hc
      exact hcut.1.2
    · exact ih _ _

/-- A text that begins with a slash does not stay where it is when a semicolon is put behind it. -/
theorem append_slash_ne (before front comment : Text) :
    before ++ '/' :: comment ≠ front ++ ('/' :: comment ++ [';']) := by
  intro h
  rcases List.append_eq_append_iff.1 h with ⟨rest, -, hrest⟩ | ⟨rest, -, hrest⟩
  · have hlength := congrArg List.length hrest
    simp only [List.length_append, List.length_cons, List.length_nil] at hlength
    omega
  · have hlength := congrArg List.length hrest
    simp only [List.length_append, List.length_cons, List.length_nil] at hlength
    obtain ⟨c, rfl⟩ := List.length_eq_one_iff.1 (show rest.length = 1 by omega)
    have hc : '/' = c := (List.cons.inj hrest).1
    have hcount := congrArg (List.count ';') hrest
    rw [← hc, List.count_append, List.count_append] at hcount
    have hone : List.count ';' [';'] = 1 := rfl
    have hzero : List.count ';' ['/'] = 0 := rfl
    omega

/-- A text that is kept, without the semicolon behind it, has no comment. -/
theorem splitComment_of_text_convertBraces (h : (convertBraces (d ++ [';']) []).text = d) :
    (Line.splitComment (d ++ [';'])).2 = [] := by
  have hsplit := Line.splitComment_append (d ++ [';'])
  have hslash : ∀ c ∈ (Line.splitComment (d ++ [';'])).2.head?, c = '/' :=
    Line.head?_splitCommentFrom .outside 0 _
  obtain ⟨⟨code, htext, -⟩, -⟩ := convertBraces_spec (d ++ [';']) []
  rw [h] at htext
  cases hcomment : (Line.splitComment (d ++ [';'])).2 with
  | nil => rfl
  | cons c comment =>
    rw [hcomment] at hsplit hslash htext
    obtain rfl : c = '/' := hslash c rfl
    -- the comment ends the line as well as the text
    have hlast : (('/' :: comment).getLast? : Option Char) = some ';' := by
      have hline := congrArg List.getLast? hsplit
      rwa [List.getLast?_append_of_ne_nil _ (by simp), List.getLast?_concat] at hline
    have hcut : Text.trim ('/' :: comment) = '/' :: comment := by
      refine Text.trim_eq_self (fun c hc => ?_) fun c hc => ?_
      · cases hc
        decide
      · rw [hlast] at hc
        cases hc
        decide
    obtain ⟨front, hfront⟩ : ∃ front, d = front ++ '/' :: comment := by
      rw [htext, hcut]
      simp only [joinComment, List.isEmpty_cons, Bool.false_eq_true, if_false]
      split
      · exact ⟨_, rfl⟩
      · exact ⟨_, (List.append_cons ..)⟩
    rw [hfront, List.append_assoc] at hsplit
    exact absurd hsplit (append_slash_ne _ _ _)

section

variable (hvisible : d ≠ []) (htrim : d.trim = d)
include hvisible htrim

/-- All of a text with a semicolon behind it is its code, when it has no comment. -/
theorem Text.codeBody_semicolon (hcomment : (Line.splitComment (d ++ [';'])).2 = []) :
    (Line.code (d ++ [';'])).trimEnd = d ++ [';'] ∧ Line.codeBody (d ++ [';']) = d ++ [';'] := by
  refine Line.codeBody_eq_self hcomment (Text.trimEnd_eq_self fun c hc => ?_)
    (Text.blanks_append_of_trimmed hvisible htrim _)
  rw [List.getLast?_concat] at hc
  cases hc
  decide

/-- It is converted to what is left of it without its braces and semicolons, when it opens no
    block. -/
theorem text_convertBraces_semicolon (hcomment : (Line.splitComment (d ++ [';'])).2 = [])
    (hopen : Line.splitBlockOpen? (d ++ [';']) = none) :
    (convertBraces (d ++ [';']) []).text = (Standing.strip {} (d ++ [';'])).trimEnd := by
  obtain ⟨hcode, hbody⟩ := Text.codeBody_semicolon hvisible htrim hcomment
  rw [← hbody] at hopen
  rw [convertBraces_of_none hopen, hcode, hbody, hcomment,
    Text.blanks_append_of_trimmed hvisible htrim]
  change joinComment [] (Standing.strip {} (d ++ [';'])).trimEnd [] = _
  cases (Standing.strip {} (d ++ [';'])).trimEnd <;> rfl

/-- A text that is whole is kept, without the semicolon behind it. -/
theorem Text.Whole.text_convertBraces (h : d.Whole .adjacent) :
    (convertBraces (d ++ [';']) []).text = d := by
  have hcomment : (Line.splitComment (d ++ [';'])).2 = [] := by
    have happend := h.passes.splitCommentFrom_append (u := [';']) (by decide)
    rw [Line.splitComment, happend, Line.splitCommentFrom_of_not_mem (by decide)]
    rfl
  have hopen : Line.splitBlockOpen? (d ++ [';']) = none := by
    have happend := h.passes.splitBlockOpenFrom?_append [';']
    rw [Line.splitBlockOpen?, happend, h.closed]
    rfl
  rw [text_convertBraces_semicolon hvisible htrim hcomment hopen, Standing.strip_append,
    h.passes.strip_eq, Standing.strip_cons,
    if_pos ((Standing.drops_semicolon_iff _).2 ⟨h.closed, h.parens⟩)]
  have hend : d.trimEnd = d := by
    rw [← htrim]
    exact Text.trimEnd_trimEnd _
  exact (congrArg Text.trimEnd (d.append_nil)).trans hend

/-- A text that is kept, without the semicolon behind it, opens no block. -/
theorem splitBlockOpen?_of_text_convertBraces (h : (convertBraces (d ++ [';']) []).text = d) :
    Line.splitBlockOpen? (d ++ [';']) = none := by
  have hcomment := splitComment_of_text_convertBraces h
  obtain ⟨hcode, hbody⟩ := Text.codeBody_semicolon hvisible htrim hcomment
  cases hopen : Line.splitBlockOpen? (d ++ [';']) with
  | none => rfl
  | some parts =>
    obtain ⟨before, after⟩ := parts
    have hsplit := Line.splitBlockOpenFrom?_eq hopen
    rw [← hbody] at hopen
    rw [convertBraces_of_header hopen rfl, hcode, hcomment,
      Text.blanks_append_of_trimmed hvisible htrim] at h
    change joinComment [] before.trim [] = d at h
    have hbefore : before.trim = d := by
      rw [← h]
      cases before.trim <;> rfl
    have hlength := congrArg List.length hsplit
    have htrimmed := Text.length_trim_le before
    rw [hbefore] at htrimmed
    simp only [List.length_append, List.length_cons, List.length_nil] at hlength
    -- nothing stands behind the brace, so that it is the semicolon
    obtain rfl : after = [] := List.eq_nil_of_length_eq_zero (by omega)
    cases (List.append_inj' hsplit rfl).2

/-- A text is kept, without the semicolon behind it, only when it is whole. -/
theorem text_convertBraces_iff :
    (convertBraces (d ++ [';']) []).text = d ↔ d.Whole .adjacent := by
  refine ⟨fun h => ?_, Text.Whole.text_convertBraces hvisible htrim⟩
  have hcomment := splitComment_of_text_convertBraces h
  rw [text_convertBraces_semicolon hvisible htrim hcomment
    (splitBlockOpen?_of_text_convertBraces hvisible htrim h), Standing.strip_append] at h
  by_cases hdrops : (Standing.run .adjacent {} d).drops ';' = true
  · rw [Standing.strip_cons, if_pos hdrops] at h
    obtain ⟨hclosed, hparens⟩ := (Standing.drops_semicolon_iff _).1 hdrops
    refine ⟨Standing.passes_of_strip (u := [';']) ?_ (by decide) hcomment, hclosed, hparens⟩
    have hlength := Text.length_trimEnd_le (Standing.strip {} d)
    rwa [(congrArg Text.trimEnd (List.append_nil (Standing.strip {} d)).symm).trans h] at hlength
  · -- a semicolon that is kept would be the last character of the text
    have hkept : (Standing.run .adjacent {} d).strip [';'] = [';'] := by
      rw [Standing.strip_cons, if_neg hdrops]
      rfl
    have hend : (Standing.strip {} d ++ [';']).trimEnd = Standing.strip {} d ++ [';'] := by
      refine Text.trimEnd_eq_self fun c hc => ?_
      rw [List.getLast?_concat] at hc
      cases hc
      decide
    rw [hkept, hend] at h
    exact absurd (Standing.drops_of_strip_semicolon h) hdrops

end

/-! ## In both places -/

/-- A declaration is converted alike alone and in a rule exactly when it is whole to the scans of a
    line as well, as it is when no two backslashes stand in a row. -/
theorem convertBraces_declaration_iff (h : d.IsDeclaration) :
    ((convertBraces (d ++ [';']) []).text = d ∧
      (convertBraces d.inRule []).lines = [⟨1, Line.spaceAfterColon d⟩] ↔ d.Whole .adjacent) ∧
    (¬['\\', '\\'] <:+: d → d.Whole .adjacent) := by
  have halone := text_convertBraces_iff h.visible h.trimmed
  refine ⟨⟨fun hboth => halone.1 hboth.1, fun hwhole => ?_⟩, h.whole.adjacent⟩
  exact ⟨halone.2 hwhole, lines_convertBraces_inRule h hwhole.passes⟩

/-- A declaration with a string, a quotation mark in it and a semicolon in parentheses. -/
theorem convertBraces_declaration_quoted :
    Text.IsDeclaration "a: \"\\\"\x7b\" (;)".toList ∧
      (convertBraces "a: \"\\\"\x7b\" (;);".toList []).text = "a: \"\\\"\x7b\" (;)".toList ∧
      (convertBraces ".x \x7b a: \"\\\"\x7b\" (;); \x7d".toList []).lines =
        [⟨1, "a: \"\\\"\x7b\" (;)".toList⟩] := by
  have hdeclaration : Text.IsDeclaration "a: \"\\\"\x7b\" (;)".toList := by decide +kernel
  obtain ⟨hiff, hplain⟩ := convertBraces_declaration_iff hdeclaration
  exact ⟨hdeclaration, hiff.2 (hplain (by decide +kernel))⟩

/-- A string that ends in a backslash, written as two: the scans of a line do not see its end. -/
theorem convertBraces_declaration_backslash :
    Text.IsDeclaration "content: \"\\\\\"".toList ∧
      ¬((convertBraces ("content: \"\\\\\"".toList ++ [';']) []).text =
          "content: \"\\\\\"".toList ∧
        (convertBraces (Text.inRule "content: \"\\\\\"".toList) []).lines =
          [⟨1, Line.spaceAfterColon "content: \"\\\\\"".toList⟩]) := by
  decide +kernel

end IndentedSass
