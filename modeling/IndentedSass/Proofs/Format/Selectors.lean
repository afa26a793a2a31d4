/-
  Selectors that are nested under the one before.

  A header that begins with the last selector and a space is shortened to what follows them.  A
  header is a list of selectors between commas, and nesting a list under another one puts each of
  its selectors behind each of the other's.  The prefix is compared character by character, commas
  and all, so the shortened header means what the header meant only where both lists have one
  selector.

  * `Text.pieces` cuts a text at some of its characters, `Text.selectors` at the commas outside of
    strings, brackets and parentheses, `Text.words` at white space (`Text.pieces_append`);
  * `nest` puts selectors behind selectors;
  * `nest_eq_iff`: when a list that was cut in the middle means the same as its parts, nested;
  * `convertBraces_nest_iff`: when converting a header keeps its meaning;
  * `closed_lastSelector`: the strings of a last selector are closed.
-/
import Mathlib
import IndentedSass.Proofs.Format.Comments
import IndentedSass.Proofs.Format.Kept
import IndentedSass.Proofs.Format.Unbraced

namespace IndentedSass

/-! ## Pieces of a text -/

/-- The pieces of one text and those of the text behind it: the last piece goes on with the
    first. -/
def glue : List Text → List Text → List Text
  | [], bs => bs
  | [a], bs => bs.modifyHead (a ++ ·)
  | a :: b :: as, bs => a :: glue (b :: as) bs

theorem glue_cons {a : Text} {as : List Text} (h : as ≠ []) (bs : List Text) :
    glue (a :: as) bs = a :: glue as bs := by
  obtain ⟨b, as, rfl⟩ := List.exists_cons_of_ne_nil h
  rfl

theorem glue_modifyHead {as : List Text} (h : as ≠ []) (c : Char) (bs : List Text) :
    glue (as.modifyHead (c :: ·)) bs = (glue as bs).modifyHead (c :: ·) := by
  obtain ⟨a, as, rfl⟩ := List.exists_cons_of_ne_nil h
  cases as with
  | nil => cases bs <;> rfl
  | cons b as => rfl

theorem length_glue {as : List Text} (ha : as ≠ []) (bs : List Text) :
    (glue as bs).length + 1 = as.length + bs.length := by
  induction as with
  | nil => exact absurd rfl ha
  | cons a as ih =>
    cases as with
    | nil => simp [glue, Nat.add_comm]
    | cons b as =>
      have hrest := ih (by simp)
      simp only [glue, List.length_cons] at hrest ⊢
      omega

namespace Text

section

variable {σ : Type} {step : σ → Char → σ} {cut : σ → Char → Bool} {s : σ}

/-- The pieces of a text between the characters at which a scan cuts it. -/
def pieces (step : σ → Char → σ) (cut : σ → Char → Bool) (s : σ) : Text → List Text
  | [] => [[]]
  | c :: cs =>
    if cut s c then [] :: pieces step cut (step s c) cs
    else (pieces step cut (step s c) cs).modifyHead (c :: ·)

theorem pieces_ne_nil (s : σ) (t : Text) : pieces step cut s t ≠ [] := by
  cases t with
  | nil => simp [pieces]
  | cons c t =>
    rw [pieces]
    split
    · simp
    · rw [Ne, List.modifyHead_eq_nil_iff]
      exact pieces_ne_nil _ t

theorem pieces_append (s : σ) (t u : Text) :
    pieces step cut s (t ++ u) =
      glue (pieces step cut s t) (pieces step cut (t.foldl step s) u) := by
  induction t generalizing s with
  | nil =>
    rw [List.nil_append, pieces, glue, List.foldl_nil]
    exact (List.modifyHead_id ▸ rfl)
  | cons c t ih =>
    rw [List.cons_append, pieces, ih, pieces, List.foldl_cons]
    split
    · rw [glue_cons (pieces_ne_nil _ t)]
    · rw [glue_modifyHead (pieces_ne_nil _ t)]

/-- A text that is not cut is its only piece. -/
theorem eq_of_pieces {a t : Text} (h : pieces step cut s t = [a]) : a = t := by
  induction t generalizing s a with
  | nil => simpa [pieces] using h.symm
  | cons c t ih =>
    rw [pieces] at h
    split at h
    · exact absurd (List.cons.inj h).2 (pieces_ne_nil _ t)
    · cases hrest : pieces step cut (step s c) t with
      | nil => exact absurd hrest (pieces_ne_nil _ t)
      | cons b bs =>
        rw [hrest, List.modifyHead_cons, List.cons.injEq] at h
        obtain ⟨rfl, rfl⟩ := h
        rw [ih hrest]

/-- The first piece of several ends where the text is cut. -/
theorem cut_of_pieces {a b t : Text} {bs : List Text} (h : pieces step cut s t = a :: b :: bs) :
    ∃ c, cut (a.foldl step s) c = true := by
  induction t generalizing s a with
  | nil => simp [pieces] at h
  | cons c t ih =>
    rw [pieces] at h
    split at h
    · rename_i hcut
      rw [← (List.cons.inj h).1]
      exact ⟨c, hcut⟩
    · cases hrest : pieces step cut (step s c) t with
      | nil => exact absurd hrest (pieces_ne_nil _ t)
      | cons d ds =>
        rw [hrest, List.modifyHead_cons, List.cons.injEq] at h
        obtain ⟨rfl, rfl⟩ := h
        rw [List.foldl_cons]
        exact ih hrest

/-- A text that the scan does not see is a part of the first piece. -/
theorem pieces_unseen {ws : Text} (h : ∀ c ∈ ws, cut s c = false ∧ step s c = s) (t : Text) :
    pieces step cut s (ws ++ t) = (pieces step cut s t).modifyHead (ws ++ ·) := by
  induction ws with
  | nil => exact (List.modifyHead_id ▸ rfl)
  | cons c ws ih =>
    obtain ⟨⟨hcut, hstep⟩, hws⟩ := List.forall_mem_cons.1 h
    rw [List.cons_append, pieces, hcut, hstep, ih hws, List.modifyHead_modifyHead]
    rfl

end

/-! ## Words -/

/-- The words of a text: what stands between white space outside of strings. -/
def words (rule : Escape) (t : Text) : List Text :=
  (pieces (Quote.step rule) (fun q c => q.isOutside && isWhite c) .outside t).filter (!·.isEmpty)

variable {rule : Escape} {p t u ws : Text} {c : Char}

/-- Behind a closed text, white space ends a word. -/
theorem words_append (hp : p.Closed rule) (hc : isWhite c = true) (t : Text) :
    words rule (p ++ c :: t) = words rule p ++ words rule t := by
  have hglue : ∀ {as bs : List Text}, as ≠ [] → glue as ([] :: bs) = as ++ bs := by
    intro as bs h
    induction as with
    | nil => exact absurd rfl h
    | cons a as ih =>
      cases as with
      | nil => simp [glue]
      | cons b as => rw [glue, ih (by simp)]; rfl
  have hstep := Quote.step_outside rule (isQuoteMark_of_isWhite hc)
  have hrun : p.foldl (Quote.step rule) .outside = .outside := hp
  rw [words, pieces_append, hrun, pieces, hstep, hc, if_pos (by rfl),
    hglue (pieces_ne_nil _ p), List.filter_append]
  rfl

theorem words_white_append (hw : White ws) (t : Text) : words rule (ws ++ t) = words rule t := by
  induction ws with
  | nil => rfl
  | cons c ws ih =>
    have hcons : words rule (c :: (ws ++ t)) = words rule (ws ++ t) :=
      words_append (closed_nil rule) (hw c (List.mem_cons_self ..)) (ws ++ t)
    exact hcons.trans (ih fun d hd => hw d (List.mem_cons_of_mem c hd))

/-- A text that begins with a visible character has a word. -/
theorem words_ne_nil (hc : isWhite c = false) (t : Text) : words rule (c :: t) ≠ [] := by
  rw [words, pieces, hc, Bool.and_false, if_neg Bool.false_ne_true]
  have hne : pieces (Quote.step rule) (fun q c => q.isOutside && isWhite c)
      (Quote.step rule .outside c) t ≠ [] := pieces_ne_nil _ t
  obtain ⟨a, as, has⟩ := List.exists_cons_of_ne_nil hne
  rw [has]
  simp

/-! ## Selectors -/

/-- The depth of brackets and parentheses after a character, which counts only outside of
    strings. -/
def bracketDepth (q : Quote) (depth : Nat) (c : Char) : Nat :=
  if !q.isOutside then depth
  else if c = '(' ∨ c = '[' then depth + 1
  else if c = ')' ∨ c = ']' then depth - 1
  else depth

/-- What a scan for commas keeps: the strings and the depth. -/
def selectorStep (rule : Escape) (s : Quote × Nat) (c : Char) : Quote × Nat :=
  (s.1.step rule c, bracketDepth s.1 s.2 c)

/-- Whether a comma ends a selector. -/
def endsSelector (s : Quote × Nat) (c : Char) : Bool := s.1.isOutside && s.2 == 0 && c == ','

/-- The selectors of a header: what stands between commas outside of strings, brackets and
    parentheses. -/
def selectors (rule : Escape) (t : Text) : List Text :=
  pieces (selectorStep rule) endsSelector (.outside, 0) t

theorem selectors_ne_nil (rule : Escape) (t : Text) : selectors rule t ≠ [] := pieces_ne_nil _ t

theorem fst_foldl_selectorStep (s : Quote × Nat) (t : Text) :
    (t.foldl (selectorStep rule) s).1 = Quote.run rule s.1 t := by
  induction t generalizing s with
  | nil => rfl
  | cons c t ih => rw [List.foldl_cons, ih]; rfl

theorem bracketDepth_mono (q : Quote) {d d' : Nat} (h : d ≤ d') (c : Char) :
    bracketDepth q d c ≤ bracketDepth q d' c := by
  unfold bracketDepth
  split_ifs <;> omega

/-- From deeper inside of brackets, fewer commas end selectors. -/
theorem pieces_deeper {q : Quote} {d d' : Nat} (h : d ≤ d') (t : Text) :
    pieces (selectorStep rule) endsSelector (q, d') t =
        pieces (selectorStep rule) endsSelector (q, d) t ∨
      (pieces (selectorStep rule) endsSelector (q, d') t).length <
        (pieces (selectorStep rule) endsSelector (q, d) t).length := by
  induction t generalizing q d d' with
  | nil => exact .inl rfl
  | cons c t ih =>
    obtain rfl | hlt := h.eq_or_lt
    · exact .inl rfl
    have hdeep : endsSelector (q, d') c = false := by
      have hne : (d' == 0) = false := beq_eq_false_iff_ne.2 (by omega)
      rw [endsSelector, hne, Bool.and_false, Bool.false_and]
    have hrest := ih (q := q.step rule c) (bracketDepth_mono q h c)
    rw [pieces, hdeep, if_neg Bool.false_ne_true, pieces]
    simp only [selectorStep]
    split
    · refine .inr ?_
      rw [List.length_modifyHead, List.length_cons]
      rcases hrest with hrest | hrest
      · rw [hrest]
        omega
      · omega
    · rw [List.length_modifyHead, List.length_modifyHead]
      exact hrest.imp_left fun heq => by rw [heq]

/-- Several selectors end before strings do. -/
theorem closed_of_selectors {a b t : Text} {bs : List Text}
    (h : selectors rule t = a :: b :: bs) : a.Closed rule := by
  obtain ⟨c, hcut⟩ := cut_of_pieces h
  simp only [endsSelector, Bool.and_eq_true, Quote.isOutside_iff, fst_foldl_selectorStep] at hcut
  exact hcut.1.1

end Text

/-! ## Nesting -/

/-- The selectors of a list nested under those of another one. -/
def nest (outer inner : List Text) : List Text :=
  outer.flatMap fun p => inner.map fun c => p ++ ' ' :: c

theorem length_nest (outer inner : List Text) :
    (nest outer inner).length = outer.length * inner.length := by
  simp [nest, List.length_flatMap]

section

variable {rule : Escape} {last rest ws : Text} {c : Char}

/-- White space ends no selector. -/
theorem Text.selectorStep_white (hc : isWhite c = true) (depth : Nat) :
    Text.endsSelector (.outside, depth) c = false ∧
      Text.selectorStep rule (.outside, depth) c = (.outside, depth) := by
  have hne : ∀ {a : Char}, isWhite a = false → c ≠ a := fun ha => (ne_of_isWhite ha hc).symm
  have hcomma : (c == ',') = false := beq_eq_false_iff_ne.2 (hne (by decide))
  have hopen : ¬(c = '(' ∨ c = '[') := not_or.2 ⟨hne (by decide), hne (by decide)⟩
  have hclose : ¬(c = ')' ∨ c = ']') := not_or.2 ⟨hne (by decide), hne (by decide)⟩
  refine ⟨by rw [Text.endsSelector, hcomma, Bool.and_false], ?_⟩
  rw [Text.selectorStep, Quote.step_outside rule (isQuoteMark_of_isWhite hc), Text.bracketDepth,
    if_neg nofun, if_neg hopen, if_neg hclose]

/-- The selectors of a list that goes on, behind white space, with another one: inside of the
    brackets that the first one leaves open, commas are not seen. -/
theorem Text.selectors_append (hlast : last.Closed rule) (hw : White ws) (rest : Text) :
    ∃ inner, Text.selectors rule (last ++ (ws ++ rest)) =
        glue (Text.selectors rule last) (inner.modifyHead (ws ++ ·)) ∧
      inner ≠ [] ∧
      (inner = Text.selectors rule rest ∨ inner.length < (Text.selectors rule rest).length) := by
  obtain ⟨depth, hstate⟩ : ∃ depth,
      last.foldl (Text.selectorStep rule) (.outside, 0) = (.outside, depth) :=
    ⟨_, Prod.ext ((Text.fst_foldl_selectorStep _ last).trans hlast) rfl⟩
  refine ⟨Text.pieces (Text.selectorStep rule) Text.endsSelector (.outside, depth) rest, ?_,
    Text.pieces_ne_nil _ rest, Text.pieces_deeper (Nat.zero_le depth) rest⟩
  rw [Text.selectors, Text.pieces_append, hstate,
    Text.pieces_unseen fun c hc => Text.selectorStep_white (hw c hc) depth]
  rfl

/-- A list that goes on behind white space means the same as its second part, nested under its
    first part, just when both parts are single selectors. -/
theorem nest_eq_iff (hlast : last.Closed rule) (hvisible : Text.words rule last ≠ [])
    (hrest : Text.words rule rest ≠ []) (hw : White ws) :
    (nest (Text.selectors rule last) (Text.selectors rule rest)).map (Text.words rule) =
        (Text.selectors rule (last ++ ' ' :: (ws ++ rest))).map (Text.words rule) ↔
      (Text.selectors rule last).length = 1 ∧ (Text.selectors rule rest).length = 1 := by
  have hspaced : White (' ' :: ws) := List.forall_mem_cons.2 ⟨by decide, hw⟩
  obtain ⟨inner, hheader, hinner, hdeeper⟩ := Text.selectors_append hlast hspaced rest
  rw [List.cons_append] at hheader
  rw [hheader]
  have hwords : ∀ {p : Text}, p.Closed rule → ∀ c : Text,
      Text.words rule (p ++ ' ' :: c) = Text.words rule p ++ Text.words rule c :=
    fun hp c => Text.words_append hp (by decide) c
  constructor
  · intro hsame
    have hcount := congrArg List.length hsame
    have hglued := length_glue (Text.selectors_ne_nil rule last)
      (inner.modifyHead ((' ' :: ws) ++ ·))
    have hfewer : inner.length ≤ (Text.selectors rule rest).length :=
      hdeeper.elim (fun heq => heq ▸ le_rfl) le_of_lt
    rw [List.length_map, List.length_map, length_nest] at hcount
    rw [List.length_modifyHead, ← hcount] at hglued
    obtain ⟨p, ps, hp⟩ := List.exists_cons_of_ne_nil (Text.selectors_ne_nil rule last)
    obtain ⟨c, cs, hc⟩ := List.exists_cons_of_ne_nil (Text.selectors_ne_nil rule rest)
    cases ps with
    | nil =>
      cases cs with
      | nil => exact ⟨by rw [hp]; rfl, by rw [hc]; rfl⟩
      | cons c' cs =>
        -- the second selector of the inner list stands in the header by itself
        obtain rfl : inner = c :: c' :: cs := by
          rw [hp, hc] at hglued
          simp only [List.length_cons, List.length_nil] at hglued
          rcases hdeeper with heq | hlt
          · rw [heq, hc]
          · rw [hc] at hlt
            simp only [List.length_cons] at hlt
            omega
        obtain rfl := Text.eq_of_pieces hp
        rw [hp, hc] at hsame
        have hsecond := (List.cons.inj (List.cons.inj hsame).2).1
        rw [hwords hlast] at hsecond
        exact absurd (List.append_left_eq_self.1 hsecond) hvisible
    | cons p' ps =>
      cases cs with
      | nil =>
        -- the first selector of the outer list stands in the header by itself
        obtain rfl := Text.eq_of_pieces hc
        rw [hp, hc] at hsame
        have hfirst := (List.cons.inj hsame).1
        rw [hwords (Text.closed_of_selectors hp)] at hfirst
        exact absurd (List.append_right_eq_self.1 hfirst) hrest
      | cons c' cs =>
        -- the header has too few selectors
        rw [hc] at hfewer
        rw [hp, hc] at hglued
        simp only [List.length_cons] at hfewer hglued
        nlinarith only [hfewer, hglued]
  · rintro ⟨houter, honly⟩
    obtain ⟨p, hp⟩ := List.length_eq_one_iff.1 houter
    obtain ⟨c, hc⟩ := List.length_eq_one_iff.1 honly
    obtain rfl := Text.eq_of_pieces hp
    obtain rfl := Text.eq_of_pieces hc
    obtain rfl : inner = [c] := by
      rcases hdeeper with heq | hlt
      · rw [heq, hc]
      · rw [honly] at hlt
        exact absurd (List.length_eq_zero_iff.1 (Nat.lt_one_iff.1 hlt)) hinner
    rw [hp, hc]
    show [Text.words rule (p ++ ' ' :: c)] = [Text.words rule (p ++ ' ' :: (ws ++ c))]
    rw [hwords hlast, hwords hlast, Text.words_white_append hw]

end

/-! ## Headers -/

/-- The header of a line that opens a block. -/
def Line.header? (line : Text) : Option Text :=
  (Line.splitBlockOpen? (Line.codeBody line)).map fun parts => parts.1.trim

section

variable {rule : Escape} {line lastSelector header rest : Text}

/-- The parts of a header that repeats the last selector: there is something in both. -/
theorem unnest?_parts (rule : Escape) {before : Text}
    (h : unnest? lastSelector before.trim = some rest) :
    ∃ ws, White ws ∧ before.trim = lastSelector ++ ' ' :: (ws ++ rest) ∧
      Text.words rule lastSelector ≠ [] ∧ Text.words rule rest ≠ [] := by
  obtain ⟨hne, behind, hheader, hrest⟩ := unnest?_eq h
  have hsplit : behind = behind.takeWhile isWhite ++ rest := by
    rw [hrest, Text.trimStart, List.takeWhile_append_dropWhile]
  have hw : White (behind.takeWhile isWhite) := fun c hc => List.mem_takeWhile_imp hc
  refine ⟨_, hw, hsplit ▸ hheader, ?_, ?_⟩
  · obtain ⟨c, cs, rfl⟩ := List.exists_cons_of_ne_nil hne
    exact Text.words_ne_nil (Text.head_trim hheader) cs
  · cases hr : rest with
    | cons c cs =>
      have hvisible := Text.head?_dropWhile (p := isWhite) behind
      rw [← Text.trimStart, ← hrest, hr] at hvisible
      exact Text.words_ne_nil (hvisible c rfl) cs
    | nil =>
      -- a header does not end in white space
      rw [hr, List.append_nil] at hsplit
      have hspaced : White (' ' :: behind) := List.forall_mem_cons.2 ⟨by decide, hsplit ▸ hw⟩
      have hlast : before.trim.getLast? = some ((' ' :: behind).getLast (by simp)) := by
        rw [hheader, List.getLast?_append_of_ne_nil _ (by simp), List.getLast?_eq_some_getLast]
      have hvisible := Text.getLast?_trimEnd _ _ hlast
      rw [hspaced _ (List.getLast_mem _)] at hvisible
      cases hvisible

/-- A header that is not nested is written as it is.  A header that is nested under the last
    selector is written without it, and the selectors that this denotes are those of the header if
    and only if neither list has a second one. -/
theorem convertBraces_nest_iff (line : Text) (hlast : lastSelector.Closed rule) :
    let converted := convertBraces line lastSelector
    let written (code : Text) : Text :=
      joinComment (Text.blanks (Line.code line).trimEnd) code (Line.splitComment line).2.trim
    (converted.nested = false → ∀ header, Line.header? line = some header →
      converted.text = written header) ∧
    (converted.nested = true → ∃ header rest, Line.header? line = some header ∧
      converted.text = written rest ∧
      ((nest (Text.selectors rule lastSelector) (Text.selectors rule rest)).map (Text.words rule) =
          (Text.selectors rule header).map (Text.words rule) ↔
        (Text.selectors rule lastSelector).length = 1 ∧ (Text.selectors rule rest).length = 1)) := by
  intro converted written
  cases hopen : Line.splitBlockOpen? (Line.codeBody line) with
  | none =>
    have hconverted : converted = _ := convertBraces_of_none hopen lastSelector
    rw [Line.header?, hopen, hconverted]
    exact ⟨fun _ header hheader => absurd hheader nofun, nofun⟩
  | some parts =>
    obtain ⟨before, after⟩ := parts
    rw [Line.header?, hopen]
    cases hunnest : unnest? lastSelector before.trim with
    | none =>
      have hconverted : converted = _ := convertBraces_of_header hopen hunnest
      rw [hconverted]
      refine ⟨fun _ header hheader => ?_, nofun⟩
      rw [← Option.some.inj hheader]
    | some rest =>
      have hconverted : converted = _ := convertBraces_of_nested hopen hunnest
      rw [hconverted]
      refine ⟨nofun, fun _ => ⟨before.trim, rest, rfl, rfl, ?_⟩⟩
      obtain ⟨ws, hw, hheader, hvisible, hrest⟩ :=
        unnest?_parts rule hunnest
      rw [hheader]
      exact nest_eq_iff hlast hvisible hrest hw

/-- A comma in parentheses is no comma of the list. -/
theorem convertBraces_nest_pseudo :
    let line : Text := ".a  .b:is(.c, .d) \x7b".toList
    let converted := convertBraces line ".a".toList
    Text.Closed .adjacent ".a".toList ∧ converted.nested = true ∧
      converted.text = ".b:is(.c, .d)".toList ∧
      (nest (Text.selectors .adjacent ".a".toList) (Text.selectors .adjacent converted.text)).map
          (Text.words .adjacent) =
        (Text.selectors .adjacent ".a  .b:is(.c, .d)".toList).map (Text.words .adjacent) := by
  intro line converted
  have hlast : Text.Closed .adjacent ".a".toList := by decide
  have hnested : converted.nested = true := by decide +kernel
  have htext : converted.text = ".b:is(.c, .d)".toList := by decide +kernel
  obtain ⟨header, rest, hheader, hwritten, hiff⟩ :=
    (convertBraces_nest_iff line hlast).2 hnested
  -- nothing stands before or behind the header
  have hblanks : Text.blanks (Line.code line).trimEnd = [] := by decide
  have hcomment : (Line.splitComment line).2.trim = [] := by decide
  have hrest : converted.text = rest := by
    rw [show converted.text = _ from hwritten, hblanks, hcomment]
    cases rest <;> rfl
  have hsame : header = ".a  .b:is(.c, .d)".toList :=
    Option.some.inj (hheader.symm.trans (by decide))
  refine ⟨hlast, hnested, htext, ?_⟩
  rw [hrest, ← hsame]
  refine hiff.2 ?_
  rw [← hrest, htext]
  decide

/-- Both lists may have a comma outside of strings, brackets and parentheses: then the nested
    header means something else. -/
theorem nest_convertBraces_comma :
    let meaning (header : Text) : List (List String) :=
      (Text.selectors .adjacent header).map fun s => (Text.words .adjacent s).map String.ofList
    let nested (last rest : Text) : List (List String) :=
      (nest (Text.selectors .adjacent last) (Text.selectors .adjacent rest)).map fun s =>
        (Text.words .adjacent s).map String.ofList
    (convertBraces ".a .b, .c \x7b".toList ".a".toList).nested = true ∧
      (convertBraces ".a .b, .c \x7b".toList ".a".toList).text = ".b, .c".toList ∧
      meaning ".a .b, .c".toList = [[".a", ".b"], [".c"]] ∧
      nested ".a".toList ".b, .c".toList = [[".a", ".b"], [".a", ".c"]] ∧
      nested ".a".toList ".b, .c".toList ≠ meaning ".a .b, .c".toList ∧
      (convertBraces ".a, .b .c \x7b".toList ".a, .b".toList).nested = true ∧
      (convertBraces ".a, .b .c \x7b".toList ".a, .b".toList).text = ".c".toList ∧
      meaning ".a, .b .c".toList = [[".a"], [".b", ".c"]] ∧
      nested ".a, .b".toList ".c".toList = [[".a", ".c"], [".b", ".c"]] ∧
      nested ".a, .b".toList ".c".toList ≠ meaning ".a, .b .c".toList := by
  decide +kernel

/-- The strings of a header are closed, so those of the next last selector are. -/
theorem closed_lastSelector_convertBraces (hlast : lastSelector.Closed .adjacent) (line : Text) :
    (convertBraces line lastSelector).lastSelector.Closed .adjacent := by
  cases hopen : Line.splitBlockOpen? (Line.codeBody line) with
  | none =>
    rw [convertBraces_of_none hopen]
    exact hlast
  | some parts =>
    obtain ⟨before, after⟩ := parts
    cases hunnest : unnest? lastSelector before.trim with
    | none =>
      rw [convertBraces_of_header hopen hunnest]
      exact Text.closed_trim_iff.2 (Line.run_splitBlockOpenFrom? hopen)
    | some rest =>
      rw [convertBraces_of_nested hopen hunnest]
      exact hlast

end

/-! ## Last selectors -/

namespace Format

variable {config : FormatConfig} {style : IndentStyle} {st : FormatState} {index : Nat}
  {line : Text} {next? : Option Text}

theorem formatHeader_lastSelector (h : st.lastSelector.Closed .adjacent) (role : LineRole) :
    (formatHeader config style role st index line).state.lastSelector.Closed .adjacent := by
  have hconverted : Text.Closed .adjacent
      (if converts config st line then convertBraces line st.lastSelector
        else ⟨line, [], if Line.isClassOrId line then [] else st.lastSelector, false⟩ :
        Converted).lastSelector := by
    split
    · exact closed_lastSelector_convertBraces h line
    · dsimp only
      split
      · exact Text.closed_nil _
      · exact h
  unfold formatHeader
  dsimp only
  split <;> exact hconverted

theorem formatProperty_lastSelector (role : LineRole) :
    (formatProperty config style role st index line).state.lastSelector = st.lastSelector := by
  unfold formatProperty
  dsimp only
  -- a global variable only changes the expected columns
  have hglobal : (if Line.isVariable line && Indent.width style.tabStop line == 0 then
      { st with propertyColumn := 0, headerLimit := 0 } else st).lastSelector = st.lastSelector := by
    split <;> rfl
  generalize (if Line.isVariable line && Indent.width style.tabStop line == 0 then
    { st with propertyColumn := 0, headerLimit := 0 } else st) = st' at hglobal
  split <;> exact hglobal

theorem formatBraces_lastSelector :
    (formatBraces config st index line next?).state.lastSelector = st.lastSelector := by
  unfold formatBraces
  dsimp only
  split
  · split <;> rfl
  · rfl

/-- The strings of the last selector are closed behind every line. -/
theorem formatLine_lastSelector (h : st.lastSelector.Closed .adjacent) :
    (formatLine config style st index line next?).state.lastSelector.Closed .adjacent := by
  have hcode :
      (formatCode config style st index line next?).state.lastSelector.Closed .adjacent := by
    have hstate : (codeState style st line).lastSelector.Closed .adjacent := by
      rwa [(codeState_frame style st line).2.2.1]
    rw [formatCode_codeState]
    split
    · exact formatHeader_lastSelector hstate _
    split
    · rwa [formatProperty_lastSelector]
    split
    · rwa [formatBlank_state]
    split
    · rwa [formatBraces_lastSelector]
    · rwa [trimLine_state]
  unfold formatLine
  split
  · exact h
  split
  · rwa [trimLine_state]
  split
  · rwa [trimLine_state]
  split
  · rwa [trimLine_state]
  · exact hcode

/-- What holds of the first state, and behind a line if it holds before it, holds before every
    line. -/
theorem stateBefore_of_step {P : FormatState → Prop} (hstart : P {})
    (hstep : ∀ st index line next?, P st → P (formatLine config style st index line next?).state)
    (text : Text) (i : Nat) : P (stateBefore config style text i) := by
  have hlines : ∀ (lines : List Text) (st : FormatState) (index : Nat), P st →
      ∀ r ∈ formatLines config style st index lines, P r.state := by
    intro lines
    induction lines with
    | nil => exact fun _ _ _ r hr => absurd hr List.not_mem_nil
    | cons line rest ih =>
      intro st index hst
      have hnext := hstep st index line rest.head? hst
      exact List.forall_mem_cons.2 ⟨hnext, ih _ _ hnext⟩
  have hresults : ∀ r ∈ results config style text, P r.state := by
    unfold results
    split
    · exact hlines _ {} 0 hstart
    · exact fun r hr => absurd hr List.not_mem_nil
  unfold stateBefore
  cases hlast : ((results config style text).take i).getLast? with
  | none => exact hstart
  | some r => exact hresults r (List.mem_of_mem_take (List.mem_of_getLast? hlast))

/-- So are they in every state in which the formatter meets a line. -/
theorem closed_lastSelector (config : FormatConfig) (style : IndentStyle) (text : Text) (i : Nat) :
    (stateBefore config style text i).lastSelector.Closed .adjacent :=
  stateBefore_of_step (P := fun st => st.lastSelector.Closed .adjacent) (Text.closed_nil _)
    (fun _ _ _ _ => formatLine_lastSelector) text i

end Format

end IndentedSass
