/-
  Converting brace syntax loses no code.

  White space, braces and semicolons lay brace syntax out.  What is `kept` of a text is what is left
  without them, but for those in strings.  Every scan of the conversion cuts a text at a character
  of layout outside of strings, and leaves out characters of layout only.

  * `Text.keptFrom_append`: what is kept of a text in two parts;
  * `keptFrom_stripBracesFrom`, `keptFrom_splitClose`, `kept_splitRule`: the scans lose nothing
    of it;
  * `kept_convertBraces`: so does the conversion, but for a selector that the header repeats.
-/
import Mathlib
import IndentedSass.Proofs.Format.Braces
import IndentedSass.Proofs.Line.Quotes

namespace IndentedSass

/-- The characters that lay out brace syntax. -/
def isLayout (c : Char) : Bool := isWhite c || c == '\x7b' || c == '\x7d' || c == ';'

/-- What is left of a character without layout. -/
def Quote.kept (q : Quote) (c : Char) : Text := if q.isOutside && isLayout c then [] else [c]

namespace Text

/-- `kept` from the middle of a text. -/
def keptFrom (q : Quote) : Text → Text
  | [] => []
  | c :: cs => q.kept c ++ keptFrom (q.step .paired c) cs

/-- A text without the white space, the braces and the semicolons outside of its strings. -/
def kept (t : Text) : Text := keptFrom .outside t

end Text

variable {c : Char} {q : Quote} {s t ws : Text} {rule : Escape}

theorem isLayout_of_isWhite (h : isWhite c = true) : isLayout c = true := by
  rw [isLayout, h]
  rfl

theorem isQuoteMark_of_isLayout (h : isLayout c = true) : isQuoteMark c = false := by
  simp only [isLayout, Bool.or_eq_true, beq_iff_eq] at h
  rcases h with ((h | rfl) | rfl) | rfl
  · exact isQuoteMark_of_isWhite h
  all_goals decide

/-! ## What is kept of a text -/

namespace Text

theorem keptFrom_append (q : Quote) (s t : Text) :
    keptFrom q (s ++ t) = keptFrom q s ++ keptFrom (Quote.run .paired q s) t := by
  induction s generalizing q with
  | nil => rfl
  | cons c s ih => rw [List.cons_append, keptFrom, ih, keptFrom, List.append_assoc, Quote.run_cons]

theorem Closed.kept_append (h : s.Closed .paired) (t : Text) :
    kept (s ++ t) = kept s ++ kept t := by
  rw [kept, keptFrom_append, show Quote.run .paired .outside s = .outside from h]
  rfl

/-- A character of layout outside of strings is not kept. -/
theorem kept_layout (h : isLayout c = true) (t : Text) : kept (c :: t) = kept t := by
  have hstep := Quote.step_outside .paired (isQuoteMark_of_isLayout h)
  rw [kept, keptFrom, Quote.kept, h, hstep]
  rfl

theorem kept_white_append (hw : White ws) (t : Text) : kept (ws ++ t) = kept t := by
  induction ws with
  | nil => rfl
  | cons c ws ih =>
    rw [List.cons_append, kept_layout (isLayout_of_isWhite (hw c (List.mem_cons_self ..)))]
    exact ih fun d hd => hw d (List.mem_cons_of_mem c hd)

theorem kept_white (hw : White ws) : kept ws = [] := by
  have hkept := kept_white_append hw []
  rwa [List.append_nil] at hkept

theorem kept_trimStart (t : Text) : kept t.trimStart = kept t := by
  have hwhite : White (t.takeWhile isWhite) := fun c hc => List.mem_takeWhile_imp hc
  conv_rhs => rw [← t.takeWhile_append_dropWhile (p := isWhite)]
  exact (kept_white_append hwhite _).symm

theorem kept_body (t : Text) : kept t.body = kept t := by
  have hwhite : White t.blanks := fun c hc => isWhite_of_isBlank (List.mem_takeWhile_imp hc)
  conv_rhs => rw [← t.blanks_append_body]
  exact (kept_white_append hwhite _).symm

theorem kept_trimEnd (h : t.Closed .paired) : kept t.trimEnd = kept t := by
  obtain ⟨ws, hw, hsplit⟩ := exists_white t
  conv_rhs => rw [hsplit]
  rw [(closed_trimEnd_iff.2 h).kept_append, kept_white hw, List.append_nil]

theorem kept_trim (h : t.Closed .paired) : kept t.trim = kept t := by
  rw [trim, kept_trimEnd (closed_trimStart_iff.2 h), kept_trimStart]

end Text

/-- The space after the colon of a declaration is put outside of its strings. -/
theorem Line.kept_spaceAfterColon (line : Text) : (Line.spaceAfterColon line).kept = line.kept := by
  cases h : Line.hasSpaceAfterColon line with
  | true => rw [Line.spaceAfterColon_of_hasSpace h]
  | false =>
    obtain ⟨name, c, rest, -, hname, -, hbody, hspaced⟩ := Line.spaceAfterColon_spec h
    have hplain : ∀ d ∈ name ++ [':'], isQuoteMark d = false := by
      intro d hd
      rcases List.mem_append.1 hd with hd | hd
      · refine Bool.eq_false_iff.2 fun hmark => ?_
        have hpart := hname d hd
        rcases isQuoteMark_iff.1 hmark with rfl | rfl <;> exact absurd hpart (by decide)
      · rw [List.mem_singleton.1 hd]
        decide
    have hclosed : Text.Closed .paired (name ++ [':']) := Text.closed_of_plain hplain
    have hwhite : White line.blanks := fun d hd => isWhite_of_isBlank (List.mem_takeWhile_imp hd)
    have hkept : ∀ v : Text,
        Text.kept (name ++ ':' :: v) = Text.kept (name ++ [':']) ++ Text.kept v := by
      intro v
      rw [← hclosed.kept_append, List.append_assoc]
      rfl
    rw [hspaced, Text.kept_white_append hwhite, hkept, Text.kept_layout (by decide), ← hkept,
      ← hbody, Text.kept_body]

/-! ## Scans -/

/-- The braces and semicolons that are removed are layout outside of strings. -/
theorem keptFrom_stripBracesFrom (hash : Bool) (interpolations parens : Nat) (hq : q.Unguarded)
    (ht : '\\' ∉ t) :
    (stripBracesFrom q hash interpolations parens t).keptFrom q = t.keptFrom q ∧
      Quote.run .paired q (stripBracesFrom q hash interpolations parens t) =
        Quote.run .paired q t := by
  induction t generalizing q hash interpolations parens with
  | nil => exact ⟨rfl, rfl⟩
  | cons c cs ih =>
    rw [List.mem_cons, not_or] at ht
    obtain ⟨hstep, hnext⟩ := hq.step_eq (Ne.symm ht.1) .adjacent .paired
    rw [hstep] at hnext
    have hrest (i p : Nat) := ih (c == '#') i p hnext ht.2
    -- a character is kept, or it is layout outside of strings
    have hkeep : ∀ i p : Nat,
        Text.keptFrom q (c :: stripBracesFrom (q.step .paired c) (c == '#') i p cs) =
          Text.keptFrom q (c :: cs) ∧
        Quote.run .paired q (c :: stripBracesFrom (q.step .paired c) (c == '#') i p cs) =
          Quote.run .paired q (c :: cs) := by
      intro i p
      exact ⟨congrArg (q.kept c ++ ·) (hrest i p).1, (hrest i p).2⟩
    have hdrop : ∀ i p : Nat, ¬(!q.isOutside) = true → isLayout c = true →
        Text.keptFrom q (stripBracesFrom (q.step .paired c) (c == '#') i p cs) =
          Text.keptFrom q (c :: cs) ∧
        Quote.run .paired q (stripBracesFrom (q.step .paired c) (c == '#') i p cs) =
          Quote.run .paired q (c :: cs) := by
      intro i p hout hlayout
      obtain rfl := Quote.not_inside_iff.1 hout
      have hsame := Quote.step_outside .paired (isQuoteMark_of_isLayout hlayout)
      rw [Quote.run_cons, hsame]
      rw [hsame] at hrest
      exact ⟨(hrest i p).1.trans (Text.kept_layout hlayout cs).symm, (hrest i p).2⟩
    simp only [stripBracesFrom, hstep]
    split_ifs with hout hopen _ hclose _ _ _ hsemicolon
    all_goals first
      | exact hkeep _ _
      | exact hdrop _ _ hout (by rw [hopen]; decide)
      | exact hdrop _ _ hout (by rw [hclose]; decide)
      | exact hdrop _ _ hout (by rw [hsemicolon.1]; decide)

/-- The brace that opens a block stands outside of strings. -/
theorem Line.run_splitBlockOpenFrom? {hash : Bool} {before after : Text}
    (h : splitBlockOpenFrom? q hash t = some (before, after)) :
    Quote.run .adjacent q before = .outside := by
  induction t generalizing q hash before with
  | nil => cases h
  | cons c cs ih =>
    simp only [splitBlockOpenFrom?] at h
    split at h
    · rename_i hopen
      simp only [Bool.and_eq_true] at hopen
      cases h
      exact Quote.isOutside_iff.1 hopen.1.1
    · obtain ⟨⟨a, b⟩, hsplit, hpair⟩ := Option.map_eq_some_iff.1 h
      simp only [Prod.mk.injEq] at hpair
      rw [← hpair.1, Quote.run_cons]
      exact ih (hpair.2 ▸ hsplit)

/-- The brace that closes a block stands outside of strings. -/
theorem keptFrom_splitClose (depth : Nat) (h : Quote.run .paired q t = .outside) :
    t.keptFrom q = (splitClose q depth t).1.keptFrom q ++ (splitClose q depth t).2.kept ∧
      Quote.run .paired q (splitClose q depth t).1 = .outside ∧
      (splitClose q depth t).2.Closed .paired := by
  induction t generalizing q depth with
  | nil => exact ⟨rfl, h, rfl⟩
  | cons c cs ih =>
    rw [Quote.run_cons] at h
    have hnext : ∀ n, Text.keptFrom q (c :: cs) =
        Text.keptFrom q (c :: (splitClose (q.step .paired c) n cs).1) ++
          (splitClose (q.step .paired c) n cs).2.kept ∧
        Quote.run .paired q (c :: (splitClose (q.step .paired c) n cs).1) = .outside ∧
        (splitClose (q.step .paired c) n cs).2.Closed .paired := by
      intro n
      obtain ⟨hkept, hinner, hafter⟩ := ih n h
      refine ⟨?_, hinner, hafter⟩
      rw [Text.keptFrom, hkept, Text.keptFrom, List.append_assoc]
    simp only [splitClose]
    split_ifs with hout _ hclose
    · exact hnext depth
    · exact hnext (depth + 1)
    · subst hclose
      obtain rfl := Quote.not_inside_iff.1 hout
      exact ⟨Text.kept_layout (by decide) cs, rfl, h⟩
    · exact hnext (depth - 1)
    · exact hnext depth

namespace RuleState

variable {st : RuleState} {depth : Nat}

/-- The cut stands where the scan of the current text ends. -/
def Tracks (st : RuleState) : Prop := st.quote = Quote.run .paired .outside st.current

theorem Tracks.keep (h : st.Tracks) (c : Char) : (st.keep c).Tracks := by
  show st.quote.step .paired c = Quote.run .paired .outside (st.current ++ [c])
  rw [Quote.run_append, ← h]
  rfl

theorem Tracks.closed (h : st.Tracks) (hout : st.quote = .outside) : st.current.Closed .paired :=
  h.symm.trans hout

theorem Tracks.clear (hout : st.quote = .outside) : Tracks { st with current := [] } := hout

theorem current_keep (st : RuleState) (c : Char) (t : Text) :
    (st.keep c).current ++ t = st.current ++ c :: t := by
  rw [keep, List.append_assoc]
  rfl

theorem kept_declaration (h : st.current.Closed .paired) :
    (st.declaration depth).flatMap (·.text.kept) = st.current.kept := by
  rw [← Text.kept_trim h, declaration]
  split
  · rename_i hnone
    rw [List.isEmpty_iff.1 hnone]
    rfl
  · rw [List.flatMap_singleton, Line.kept_spaceAfterColon]

theorem kept_header (h : st.current.Closed .paired) :
    (st.header depth).flatMap (·.text.kept) = st.current.kept := by
  rw [← Text.kept_trim h, header]
  split
  · rename_i hnone
    rw [List.isEmpty_iff.1 hnone]
    rfl
  · rw [List.flatMap_singleton]

end RuleState

/-- The lines that a rule is cut into hold what is kept of the rule, in its order. -/
theorem kept_splitRule {depth : Nat} {st : RuleState} (htracks : st.Tracks)
    (hclosed : (st.current ++ t).Closed .paired) :
    (splitRule depth st t).flatMap (·.text.kept) = (st.current ++ t).kept := by
  -- a layout character outside of strings may be left out
  have hskip : ∀ {st : RuleState} {c : Char} {cs : Text}, st.Tracks → st.quote = .outside →
      isLayout c = true → (st.current ++ c :: cs).Closed .paired →
      Text.Closed .paired cs ∧ (st.current ++ c :: cs).kept = st.current.kept ++ Text.kept cs := by
    intro st c cs htracks hout hlayout hclosed
    have hcurrent := htracks.closed hout
    have hstep := Quote.step_outside .paired (isQuoteMark_of_isLayout hlayout)
    refine ⟨?_, by rw [hcurrent.kept_append, Text.kept_layout hlayout]⟩
    have hcs := hcurrent.append_iff.1 hclosed
    rwa [Text.Closed, Quote.run_cons, hstep] at hcs
  fun_induction splitRule depth st t
  case case1 =>
    rw [List.append_nil] at hclosed ⊢
    exact RuleState.kept_declaration hclosed
  -- the character is kept
  case case2 ih | case5 ih | case7 ih | case8 ih | case10 ih =>
    rw [← RuleState.current_keep] at hclosed ⊢
    exact ih (htracks.keep _) hclosed
  case case3 st c cs _ hhash opened ih =>
    obtain ⟨rfl, hhead⟩ := hhash
    obtain ⟨cs, rfl⟩ : ∃ rest, cs = '\x7b' :: rest := List.head?_eq_some_iff.1 hhead
    rw [← RuleState.current_keep, ← RuleState.current_keep] at hclosed ⊢
    exact ih ((htracks.keep _).keep _) hclosed
  -- a nested rule
  case case4 st cs hout _ ih₁ ih₂ =>
    replace hout := Quote.not_inside_iff.1 hout
    obtain ⟨hcs, hkept⟩ := hskip htracks hout (by decide) hclosed
    obtain ⟨hparts, hinner, hafter⟩ := keptFrom_splitClose 0 hcs
    rw [List.flatMap_append, List.flatMap_append, RuleState.kept_header (htracks.closed hout),
      ih₁ rfl hinner, ih₂ (.clear hout) hafter, hkept, List.append_assoc]
    exact congrArg _ hparts.symm
  -- a closing brace that closes nothing
  case case6 st cs hout _ _ _ ih =>
    replace hout := Quote.not_inside_iff.1 hout
    have hcurrent := htracks.closed hout
    obtain ⟨hcs, hkept⟩ := hskip htracks hout (by decide) hclosed
    rw [ih htracks (hcurrent.append_iff.2 hcs), hkept, hcurrent.kept_append]
  -- the end of a declaration
  case case9 st c cs hout _ _ _ _ _ hsemicolon ih =>
    replace hout := Quote.not_inside_iff.1 hout
    obtain ⟨rfl, -⟩ := hsemicolon
    obtain ⟨hcs, hkept⟩ := hskip htracks hout (by decide) hclosed
    rw [List.flatMap_append, RuleState.kept_declaration (htracks.closed hout),
      ih (.clear hout) hcs, hkept]
    rfl

/-! ## Lines -/

section

variable {lastSelector header rest : Text}

/-- A header is the selector that it repeats and what is left of it. -/
theorem unnest?_eq (h : unnest? lastSelector header = some rest) :
    lastSelector ≠ [] ∧
      ∃ behind, header = lastSelector ++ ' ' :: behind ∧ rest = Text.trimStart behind := by
  rw [unnest?] at h
  split at h
  · cases h
  rename_i hne
  obtain ⟨behind, hprefix, rfl⟩ := Option.map_eq_some_iff.1 h
  refine ⟨fun hnil => hne (List.isEmpty_iff.2 hnil), behind, ?_, rfl⟩
  rw [Text.dropPrefix?_eq_some_iff.1 hprefix, List.append_assoc]
  rfl

theorem kept_unnest? (hlast : lastSelector.Closed .paired)
    (h : unnest? lastSelector header = some rest) :
    header.kept = lastSelector.kept ++ rest.kept := by
  obtain ⟨-, behind, rfl, rfl⟩ := unnest?_eq h
  rw [hlast.kept_append, Text.kept_layout (by decide), Text.kept_trimStart]

end

theorem joinComment_eq (indent code comment : Text) :
    joinComment indent code comment =
      if code = [] ∧ comment = [] then []
      else indent ++ code ++ (if code = [] ∨ comment = [] then [] else [' ']) ++ comment := by
  cases code <;> cases comment <;> simp [joinComment]

theorem kept_stripBraces (hclosed : t.Closed .paired) (hplain : '\\' ∉ t) :
    (stripBraces t).trimEnd.kept = t.kept := by
  obtain ⟨hkept, hrun⟩ := keptFrom_stripBracesFrom (q := .outside) false 0 0 trivial hplain
  have hstrip : (stripBraces t).Closed .paired := hrun.trans hclosed
  rw [Text.kept_trimEnd hstrip]
  exact hkept

/-- A rule on one line is its header and its lines. -/
theorem kept_rule {before after : Text} (hclosed : t.Closed .paired) (hplain : '\\' ∉ t)
    (hopen : Line.splitBlockOpen? t = some (before, after)) :
    t.kept = before.trim.kept ++ (splitRule 1 {} after).flatMap (·.text.kept) := by
  obtain rfl := Line.splitBlockOpenFrom?_eq hopen
  have hrun : before.Closed .adjacent := Line.run_splitBlockOpenFrom? hopen
  have hbefore : before.Closed .paired :=
    hrun.of_not_mem (fun h => hplain (List.mem_append_left _ h)) .paired
  have hafter : after.Closed .paired := by
    have hopened := hbefore.append_iff.1 hclosed
    rwa [Text.Closed, Quote.run_cons, Quote.step_outside .paired (by decide)] at hopened
  have hstart : RuleState.Tracks {} := rfl
  rw [hbefore.kept_append, Text.kept_layout (by decide), Text.kept_trim hbefore,
    kept_splitRule hstart hafter]
  rfl

/-- Converting a line loses no code: what is kept of the code is, in its order, what is kept of the
    selector that the header is nested under, of the converted code and of the lines of the rule.
    What is written is the converted code, indented by blanks, and the comment. -/
theorem kept_convertBraces {line lastSelector : Text} {rule rule' : Escape} (hline : '\\' ∉ line)
    (hcode : (Line.code line).Closed rule) (hlast : lastSelector.Closed rule') :
    let comment := (Line.splitComment line).2.trim
    let converted := convertBraces line lastSelector
    ∃ indent code : Text, (∀ c ∈ indent, isBlank c = true) ∧
      converted.text = (if code = [] ∧ comment = [] then []
        else indent ++ code ++ (if code = [] ∨ comment = [] then [] else [' ']) ++ comment) ∧
      (Line.code line).kept = (if converted.nested then lastSelector.kept else []) ++ code.kept ++
        converted.lines.flatMap (·.text.kept) := by
  intro comment converted
  have hplain : '\\' ∉ Line.codeBody line := fun h => hline (Line.mem_of_mem_codeBody h)
  replace hcode : (Line.code line).Closed .paired := by
    refine hcode.of_not_mem (fun h => hline ?_) .paired
    rw [← Line.splitComment_append line]
    exact List.mem_append_left _ h
  have hbody : (Line.codeBody line).Closed .paired :=
    Text.closed_body_iff.2 (Text.closed_trimEnd_iff.2 hcode)
  have hkept : (Line.code line).kept = (Line.codeBody line).kept :=
    (Text.kept_trimEnd hcode).symm.trans (Text.kept_body _).symm
  -- what is written follows from what the code is converted to
  refine ⟨Text.blanks (Line.code line).trimEnd, ?_⟩
  suffices h : ∃ code : Text,
      converted.text = joinComment (Text.blanks (Line.code line).trimEnd) code comment ∧
      (Line.codeBody line).kept = (if converted.nested then lastSelector.kept else []) ++ code.kept ++
        converted.lines.flatMap (·.text.kept) by
    obtain ⟨code, htext, hcode⟩ := h
    exact ⟨code, fun c hc => List.mem_takeWhile_imp hc, by rw [htext, joinComment_eq],
      hkept.trans hcode⟩
  cases hopen : Line.splitBlockOpen? (Line.codeBody line) with
  | none =>
    have hconverted : converted = _ := convertBraces_of_none hopen lastSelector
    refine ⟨(stripBraces (Line.codeBody line)).trimEnd, by rw [hconverted], ?_⟩
    rw [hconverted, kept_stripBraces hbody hplain, List.flatMap_nil, List.append_nil]
    rfl
  | some parts =>
    obtain ⟨before, after⟩ := parts
    rw [kept_rule hbody hplain hopen]
    cases hunnest : unnest? lastSelector before.trim with
    | none =>
      have hconverted : converted = _ := convertBraces_of_header hopen hunnest
      rw [hconverted]
      exact ⟨before.trim, rfl, rfl⟩
    | some rest =>
      have hconverted : converted = _ := convertBraces_of_nested hopen hunnest
      have hlast : lastSelector.Closed .paired := by
        obtain ⟨-, behind, hheader, -⟩ := unnest?_eq hunnest
        refine hlast.of_not_mem (fun h => hplain ?_) .paired
        rw [Line.splitBlockOpenFrom?_eq hopen]
        refine List.mem_append_left _ (Text.mem_of_mem_trim ?_)
        exact hheader ▸ List.mem_append_left _ h
      rw [hconverted, kept_unnest? hlast hunnest]
      exact ⟨rest, rfl, rfl⟩

/-- A header that repeats the last selector, a semicolon in a string and a brace too many. -/
theorem kept_convertBraces_unbalanced :
    let line : Text := " .a .b \x7b c:'; ' \x7d \x7d d // e".toList
    let converted := convertBraces line ".a".toList
    converted.nested = true ∧ (Line.code line).kept = ".a.bc:'; 'd".toList ∧
      ∃ indent code : Text, (∀ c ∈ indent, isBlank c = true) ∧
        converted.text = (if code = [] ∧ "// e".toList = [] then []
          else indent ++ code ++ (if code = [] ∨ "// e".toList = [] then [] else [' ']) ++
            "// e".toList) ∧
        (Line.code line).kept = (if converted.nested then Text.kept ".a".toList else []) ++ code.kept ++
          converted.lines.flatMap (·.text.kept) := by
  intro line converted
  have hcode : (Line.code line).Closed .never := by decide
  have hlast : Text.Closed .never ".a".toList := by decide
  exact ⟨by decide +kernel, by decide, kept_convertBraces (by decide) hcode hlast⟩

end IndentedSass
