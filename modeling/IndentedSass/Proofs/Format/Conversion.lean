/-
  Formatting brace syntax twice.

  The first pass leaves what formatting the converted lines would leave, if nothing was
  converted.  That text has no brace syntax any more, so the second pass converts nothing
  and finds every line in its place.  The first pass does not see the rules that are nested on
  one line; the second one does, so the two may be in different states behind them.

  * `visits` lists the states in which the lines of a text are formatted by both,
    `unbracedLines` the lines that they are converted to;
  * `lines_formatText_converted` reads the lines of the formatted text off them;
  * `formatText_formatText_converted`: formatting once more gives no edits;
  * `formatText_of_combinator`: it may do so where a selector is shortened to one that
    the formatter does not take for a header.
-/
import Mathlib
import IndentedSass.Proofs.Format.Unbraced

namespace IndentedSass

namespace Text

/-- Lines are read back from the text that takes the place of a line. -/
theorem lines_unlines_ending {ls : List Text} (hne : ls ≠ []) (hfeed : ∀ l ∈ ls, '\n' ∉ l)
    (hends : ∀ l ∈ ls, EndsPlainly l) (other : Text) :
    (lines (unlines ls ++ other.ending)).map dropReturn = ls := by
  induction ls with
  | nil => exact absurd rfl hne
  | cons l rest ih =>
    have hl := hends l (List.mem_cons_self ..)
    have hfeed' := hfeed l (List.mem_cons_self ..)
    cases rest with
    | nil =>
      have hone : '\n' ∉ l ++ other.ending := by
        rw [List.mem_append, not_or]
        refine ⟨hfeed', ?_⟩
        unfold ending
        split <;> decide
      rw [unlines_singleton, lines_of_not_mem hone, List.map_singleton]
      exact congrArg (fun x => [x]) (Format.dropReturn_append_ending hl other)
    | cons l' rest =>
      rw [unlines_cons_cons, List.append_assoc, List.cons_append, lines_append_feed,
        lines_of_not_mem hfeed', List.map_append, ih (by simp)
          (fun m hm => hfeed m (List.mem_cons_of_mem l hm))
          fun m hm => hends m (List.mem_cons_of_mem l hm), List.map_singleton,
        Format.dropReturn_of_endsPlainly hl, List.singleton_append]

end Text

namespace Format

variable {config : FormatConfig} {style : IndentStyle} {st st' s : FormatState} {line text : Text}
  {index column : Nat} {lines : List Text}

/-! ## The lines that a line is converted to -/

theorem trimEnd_placed (hvisible : Line.isBlankLine text = false) (htrim : text.trimEnd = text) :
    (placed config style column text).trimEnd = placed config style column text := by
  unfold placed
  split
  · unfold trimmed
    split
    · exact Text.trimEnd_trimEnd _
    · exact trimEnd_withNormalIndent hvisible htrim
  · exact Text.trimEnd_trimEnd _

/-- What holds of a line that brace syntax was converted to. -/
structure Unbraced (style : IndentStyle) (line new : Text) : Prop where
  trim : new.trimEnd = new
  column : Indent.width style.tabStop new < 2 ^ 50
  braces : Line.isBraceSyntax new false = false
  chars : ∀ c ∈ new, isBlank c = true ∨ c ∈ line

theorem Unbraced.plain {new : Text} (h : Unbraced style line new) :
    Plain (unconverted config) style new := by
  refine ⟨?_, h.column, (fun hconfig => nomatch hconfig), fun _ hreset => ?_, fun _ hignore => ?_⟩
  · rw [← h.trim]
    exact Text.endsPlainly_trimEnd new
  · rwa [h.trim] at hreset
  · rwa [h.trim] at hignore

theorem Unbraced.not_mem {new : Text} (h : Unbraced style line new) (hline : '\n' ∉ line) :
    '\n' ∉ new := by
  intro hmem
  rcases h.chars _ hmem with hblank | hmem
  · exact absurd hblank (by decide)
  · exact hline hmem

theorem mem_of_mem_converted {c : Char} (h : c ∈ (converted config style st line).text) :
    isBlank c = true ∨ c ∈ line := by
  rcases mem_of_mem_convertBraces h with hblank | hmem
  · exact .inl hblank
  · exact mem_of_mem_spaced hmem

theorem opensBlock_congr {l o : Text} (h : Line.traits l = Line.traits o) :
    opensBlock l = opensBlock o := by
  simp only [Line.traits, Line.Traits.mk.injEq] at h
  simp only [opensBlock, h]

theorem isProperty_congr {l o : Text} (h : Line.traits l = Line.traits o) :
    Line.isProperty l = Line.isProperty o := congrArg Line.Traits.isProperty h

/-- The lines of a rule on one line. -/
theorem unbraced_rule {l : RuleLine} {x : Text} (hcut : l.Cut x)
    (hx : ∀ c ∈ x, isBlank c = true ∨ c ∈ line)
    (hbraces : Line.isBraceSyntax (Indent.ofColumn style column ++ l.text) false = false)
    (hcolumn : Indent.width style.tabStop (Indent.ofColumn style column ++ l.text) < 2 ^ 50) :
    Unbraced style line (Indent.ofColumn style column ++ l.text) ∧
      Line.isBlankLine (Indent.ofColumn style column ++ l.text) = false := by
  have hblanks : Blanks (Indent.ofColumn style column) := Indent.blanks_ofColumn style _
  refine ⟨⟨(neat_rule hcut {} style column).trim, hcolumn, hbraces, fun c hc => ?_⟩, ?_⟩
  · rcases List.mem_append.1 hc with hc | hc
    · exact .inl (hblanks c hc)
    · exact (hcut.mem_of_mem hc).elim .inl (hx c)
  · exact (Line.isBlankLine_blanks hblanks l.text).trans (visible_rule hcut)

/-- The lines of a header and its rule. -/
theorem unbraced_header {new : Converted}
    (hvisible : Line.isBlankLine new.text = false) (htrim : new.text.trimEnd = new.text)
    (hbraces : Line.isBraceSyntax new.text false = false)
    (hchars : ∀ c ∈ new.text, isBlank c = true ∨ c ∈ line)
    (hcut : ∀ l ∈ new.lines, ∃ x : Text, (∀ c ∈ x, isBlank c = true ∨ c ∈ line) ∧ l.Cut x)
    (hrules : ∀ written ∈ new.lines.map fun l =>
      Indent.ofColumn style (column + style.tabStop * l.depth) ++ l.text,
        Line.isBraceSyntax written false = false)
    (hcolumns : ∀ written ∈ placed config style column new.text :: new.lines.map fun l =>
      Indent.ofColumn style (column + style.tabStop * l.depth) ++ l.text,
        Indent.width style.tabStop written < 2 ^ 50) :
    ∀ written ∈ placed config style column new.text :: new.lines.map fun l =>
        Indent.ofColumn style (column + style.tabStop * l.depth) ++ l.text,
      Unbraced style line written ∧ Line.isBlankLine written = false := by
  have htraits := traits_placed config style column hvisible
  intro written hmem
  have hcolumn := hcolumns written hmem
  rcases List.mem_cons.1 hmem with rfl | hmem
  · refine ⟨⟨trimEnd_placed hvisible htrim, hcolumn,
      (congrArg Line.Traits.isBraceSyntax htraits).trans hbraces, fun c hc => ?_⟩,
      (congrArg Line.Traits.isBlankLine htraits).trans hvisible⟩
    exact (mem_of_mem_placed hvisible hc).elim .inl (hchars c)
  · have hrule := hrules written hmem
    obtain ⟨l, hl, rfl⟩ := List.mem_map.1 hmem
    obtain ⟨x, hx, hcut⟩ := hcut l hl
    exact unbraced_rule hcut hx hrule hcolumn

/-- A line that is not converted is left as it is; one that is converted becomes lines
    without brace syntax, of which only a single one may be blank. -/
theorem unbraced_cases (hline : Tame config style st s line) :
    (unbraced config style st line = [line] ∧
      (isCode st line = true → converts config st line = false)) ∨
    ∃ first rest, unbraced config style st line = first :: rest ∧
      (∀ st', isRedundantBefore config st' first = isRedundantBefore config st' line) ∧
      (∀ new ∈ first :: rest, Unbraced style line new) ∧
      (∀ new ∈ rest, Neat config style new) ∧
      (rest = [] ∨ ∀ new ∈ first :: rest, Line.isBlankLine new = false) := by
  by_cases hconverted : (isCode st line && converts config st line) = true
  · refine .inr ?_
    obtain ⟨hcode, hconverts⟩ := Bool.and_eq_true_iff.1 hconverted
    have htidy := hline.tidy hcode hconverts
    have hkeeps := htidy.keeps
    have hcolumns := htidy.columns
    have htrim : (converted config style st line).text.trimEnd = (converted config style st line).text :=
      trimEnd_convertBraces _ _
    have hredundant : ∀ {new : Text}, opensBlock new = opensBlock line →
        Line.isProperty new = Line.isProperty line → ∀ st',
          isRedundantBefore config st' new = isRedundantBefore config st' line := by
      intro new hblock hproperty st'
      rw [isRedundantBefore_eq, isRedundantBefore_eq, hblock, hproperty]
    rw [unbraced, if_pos hconverted] at hcolumns ⊢
    by_cases hheader : (LineRole.ofLine style.tabStop st line).1.isHeader line = true
    · have hvisible := hkeeps.visible_of_header hheader
      have hcut : ∀ l ∈ (converted config style st line).lines,
          ∃ x : Text, (∀ c ∈ x, isBlank c = true ∨ c ∈ line) ∧ l.Cut x := by
        intro l hl
        obtain ⟨x, hx, hcut⟩ := (convertBraces_spec _ _).2 l hl
        exact ⟨x, fun c hc => mem_of_mem_spaced (hx c hc), hcut⟩
      have hagain := hline.again
      rw [unbraced, if_pos hconverted] at hagain
      rw [if_pos hheader] at hcolumns hagain ⊢
      have hlines := unbraced_header hvisible htrim hkeeps.braces (fun _ => mem_of_mem_converted) hcut
        hagain.2.braces hcolumns
      have htraits := traits_placed config style
        (convertedColumn style st line (converted config style st line).nested) hvisible
      refine ⟨_, _, rfl, hredundant ((opensBlock_congr htraits).trans hkeeps.block)
        ((isProperty_congr htraits).trans hkeeps.isProperty),
        fun new hnew => (hlines new hnew).1, fun new hnew => ?_,
        .inr fun new hnew => (hlines new hnew).2⟩
      obtain ⟨l, hl, rfl⟩ := List.mem_map.1 hnew
      obtain ⟨x, -, hx⟩ := hcut l hl
      exact neat_rule hx config style _
    · rw [if_neg hheader] at hcolumns ⊢
      refine ⟨_, [], rfl, hredundant hkeeps.block hkeeps.isProperty, ?_, List.forall_mem_nil _,
        .inl rfl⟩
      intro new hnew
      have hcolumn := hcolumns new hnew
      cases List.mem_singleton.1 hnew
      exact ⟨htrim, hcolumn, hkeeps.braces, fun c hc => mem_of_mem_converted hc⟩
  · refine .inl ⟨?_, fun hcode => ?_⟩
    · rw [unbraced, if_neg hconverted]
    · simpa [hcode] using hconverted

theorem unbraced_shape (hline : Tame config style st s line) :
    (∃ new, unbraced config style st line = [new]) ∨
      ∀ new ∈ unbraced config style st line, Line.isBlankLine new = false := by
  rcases unbraced_cases hline with ⟨hsame, -⟩ | ⟨first, rest, hlines, -, -, -, rfl | hvisible⟩
  · exact .inl ⟨line, hsame⟩
  · exact .inl ⟨first, hlines⟩
  · exact .inr (hlines ▸ hvisible)

theorem plain_of_mem_unbraced {new : Text} (hline : Tame config style st s line) (hfeed : '\n' ∉ line)
    (hnew : new ∈ unbraced config style st line) :
    Plain (unconverted config) style new ∧ '\n' ∉ new := by
  rcases unbraced_cases hline with ⟨hsame, -⟩ | ⟨first, rest, hlines, -, hunbraced, -⟩
  · rw [hsame, List.mem_singleton] at hnew
    exact hnew ▸ ⟨hline.plain, hfeed⟩
  · have h := hunbraced new (hlines ▸ hnew)
    exact ⟨h.plain, h.not_mem hfeed⟩

/-- Formatting the lines once more writes what was written for the line. -/
theorem advanceAll_unbraced (hline : Tame config style st s line) :
    (advanceAll config style s (unbraced config style st line)).2 =
      putFirst config style (bare st) (unbraced config style st line) := by
  refine hline.again.advanceAll fun new hnew => ?_
  rcases unbraced_cases hline with ⟨hsame, -⟩ | ⟨first, rest, hlines, -, -, hneat, -⟩
  · rw [hsame] at hnew
    cases hnew
  · rw [hlines] at hnew
    exact hneat new hnew

/-- The lines are dropped when the line was. -/
theorem any_drops_unbraced (hline : Tame config style st s line) (next? : Option Text) :
    ((unbraced config style st line).any fun new => drops config s new next?) =
      (unbraced config style st line).any fun new => drops config (bare st) new next? := by
  have hagain := hline.again
  rcases unbraced_shape hline with ⟨new, hnew⟩ | hvisible
  · rw [hnew] at hagain ⊢
    rw [List.any_cons, List.any_cons, hagain.1.drops config]
    rfl
  · rw [any_drops_of_visible hvisible, any_drops_of_visible hvisible]

/-! ## Steps through lines -/

theorem advanceAll_spec (ht : style.tabStop < 2 ^ 50) (hst : Settled style.tabStop st)
    (hlines : ∀ line ∈ lines, Plain (unconverted config) style line ∧ '\n' ∉ line) :
    Settled style.tabStop (advanceAll config style st lines).1 ∧
      (∀ new ∈ (advanceAll config style st lines).2, EndsPlainly new ∧ '\n' ∉ new) ∧
      (lines ≠ [] → (advanceAll config style st lines).2 ≠ []) := by
  induction lines generalizing st with
  | nil => exact ⟨hst, (fun new hnew => nomatch hnew), fun h => absurd rfl h⟩
  | cons line rest ih =>
    obtain ⟨hplain, hfeed⟩ := hlines line (List.mem_cons_self ..)
    obtain ⟨hsettled, hnews, -⟩ := ih (hst.advance config ht hplain.column)
      fun l hl => hlines l (List.mem_cons_of_mem line hl)
    refine ⟨hsettled, fun new hnew => ?_, fun _ => List.cons_ne_nil _ _⟩
    rcases List.mem_cons.1 hnew with rfl | hnew
    · refine ⟨(regular_advance ht hst hplain).ends, fun hmem => ?_⟩
      rcases mem_of_mem_advance ht hst hplain hmem with hblank | hmem
      · exact absurd hblank (by decide)
      · exact hfeed hmem
    · exact hnews new hnew

/-- A single line may be dropped; several lines are kept if none of them is blank. -/
theorem kept_append {news : List Text} (rest : List Text)
    (h : (∃ new, news = [new]) ∨ ∀ new ∈ news, Line.isBlankLine new = false) :
    kept config style st (news ++ rest) =
      (if news.any fun new => drops config st new rest.head? then []
        else (advanceAll config style st news).2) ++
      kept config style (advanceAll config style st news).1 rest := by
  rcases h with ⟨new, rfl⟩ | hvisible
  · simp only [List.singleton_append, kept, advanceAll, List.any_cons, List.any_nil, Bool.or_false]
    split <;> rfl
  · rw [any_drops_of_visible hvisible, if_neg Bool.false_ne_true]
    induction news generalizing st with
    | nil => rfl
    | cons new news ih =>
      rw [List.cons_append, kept, drops_of_visible (hvisible new (List.mem_cons_self ..)),
        if_neg Bool.false_ne_true, ih fun l hl => hvisible l (List.mem_cons_of_mem new hl)]
      rfl

/-! ## The first pass -/

/-- A line on the way through a text. -/
structure Visit where
  /-- The state in which it is formatted. -/
  state : FormatState
  /-- The state in which the lines that it is converted to are formatted once more. -/
  again : FormatState
  /-- The line. -/
  line : Text

/-- The way through lines, the first of which is at an index. -/
def visits (config : FormatConfig) (style : IndentStyle) :
    FormatState → FormatState → Nat → List Text → List Visit
  | _, _, _, [] => []
  | st, s, index, line :: rest =>
    ⟨st, s, line⟩ :: visits config style (formatLine config style st index line rest.head?).state
      (advanceAll config style s (unbraced config style st line)).1 (index + 1) rest

/-- The lines that lines are converted to. -/
def unbracedLines (config : FormatConfig) (style : IndentStyle) :
    FormatState → Nat → List Text → List Text
  | _, _, [] => []
  | st, index, line :: rest =>
    unbraced config style st line ++ unbracedLines config style
      (formatLine config style st index line rest.head?).state (index + 1) rest

/-- The line behind a blank line decides in the same way whether it goes. -/
theorem any_head?_unbracedLines
    (hlines : ∀ v ∈ visits config style st s index lines, Tame config style v.state v.again v.line)
    (st' : FormatState) :
    lines.head?.any (isRedundantBefore config st') =
      (unbracedLines config style st index lines).head?.any (isRedundantBefore config st') := by
  cases lines with
  | nil => rfl
  | cons line rest =>
    rcases unbraced_cases (hlines ⟨st, s, line⟩ (List.mem_cons_self ..)) with
      ⟨hsame, -⟩ | ⟨first, others, heq, hredundant, -⟩
    · rw [unbracedLines, hsame]
      rfl
    · rw [unbracedLines, heq]
      exact (hredundant st').symm

/-- Replacing a line is keeping it or giving it a new text. -/
theorem exists_lineEdit (hends : EndsPlainly line.dropReturn) (index : Nat) (new : Text) :
    ∃ e : LineEdit, e ≠ .remove ∧ e.edit? index line = replaceLine index line.dropReturn new ∧
      e.apply line = some (new ++ line.ending) := by
  by_cases hsame : new = line.dropReturn
  · refine ⟨.keep, LineEdit.noConfusion, ?_, ?_⟩
    · rw [hsame, replaceLine_self]
      rfl
    · rw [hsame, Text.dropReturn_append_ending]
      rfl
  · refine ⟨.replace new, LineEdit.noConfusion, ?_, ?_⟩
    · rw [replaceLine, if_neg hsame]
      rfl
    · rw [LineEdit.apply, endings_of_endsPlainly hends]

theorem not_mem_dropReturn (h : '\n' ∉ line) : '\n' ∉ line.dropReturn := by
  rw [← line.dropReturn_append_ending, List.mem_append, not_or] at h
  exact h.1

/-- The edits of the first pass are changes of lines, and they leave what formatting the
    converted lines leaves. -/
theorem exists_changes (ht : style.tabStop < 2 ^ 50) (hst : Settled style.tabStop (bare st))
    (hs : Settled style.tabStop s) (hfeed : ∀ line ∈ lines, '\n' ∉ line)
    (hlines : ∀ v ∈ visits config style st s index (lines.map Text.dropReturn),
      Tame config style v.state v.again v.line) :
    ∃ changes : List (Text × LineEdit), changes.map Prod.fst = lines ∧
      (formatLines config style st index (lines.map Text.dropReturn)).filterMap LineResult.edit? =
        LineEdit.edits index changes ∧
      LineEdit.KeepsLast changes ∧
      ((LineEdit.applyAll changes).flatMap Text.lines).map Text.dropReturn =
        kept config style s (unbracedLines config style st index (lines.map Text.dropReturn)) := by
  -- the invariant: `s` is the state of a pass through the converted lines
  induction lines generalizing st s index with
  | nil => exact ⟨[], rfl, rfl, (fun change hchange => nomatch hchange), rfl⟩
  | cons line rest ih =>
    obtain ⟨hline, hnext⟩ := List.forall_mem_cons.1 hlines
    have hplain : ∀ new ∈ unbraced config style st line.dropReturn,
        Plain (unconverted config) style new ∧ '\n' ∉ new := fun new hnew =>
      plain_of_mem_unbraced hline (not_mem_dropReturn (hfeed line (List.mem_cons_self ..))) hnew
    obtain ⟨hsettled, hnews, hne⟩ := advanceAll_spec ht hs hplain
    obtain ⟨hstate, hedit⟩ := formatLine_unbraced index ht hst hline
      (any_head?_unbracedLines hnext st)
    obtain ⟨changes, hfst, hedits, hlast, hkept⟩ := ih hstate hsettled
      (fun l hl => hfeed l (List.mem_cons_of_mem line hl)) hnext
    rw [← any_drops_unbraced hline, ← advanceAll_unbraced hline] at hedit
    rw [List.map_cons, formatLines, unbracedLines, kept_append _ (unbraced_shape hline),
      ← hkept, List.filterMap_cons, hedit, hedits]
    split_ifs with hdrops
    · -- the line is dropped, so there is a line behind it
      refine ⟨(line, .remove) :: changes, by rw [List.map_cons, hfst], rfl, ?_, rfl⟩
      refine hlast.cons fun hnil => ?_
      obtain ⟨new, -, hnew⟩ := List.any_eq_true.1 hdrops
      obtain ⟨-, -, -, next, hmem, -⟩ := drops_iff.1 hnew
      rw [← hfst, hnil] at hmem
      cases hmem
    · obtain ⟨e, hkeep, hedit', happly⟩ := exists_lineEdit hline.plain.ends index
        (Text.unlines (advanceAll config style s (unbraced config style st line.dropReturn)).2)
      refine ⟨(line, e) :: changes, by rw [List.map_cons, hfst], ?_, hlast.cons fun _ => hkeep,
        ?_⟩
      · rw [LineEdit.edits, hedit']
        cases replaceLine index line.dropReturn _ <;> rfl
      · have hnonempty : unbraced config style st line.dropReturn ≠ [] := by
          rcases unbraced_cases hline with ⟨hsame, -⟩ | ⟨first, others, hothers, -⟩
          · exact hsame ▸ List.cons_ne_nil _ _
          · exact hothers ▸ List.cons_ne_nil _ _
        rw [LineEdit.applyAll, List.filterMap_cons]
        dsimp only
        rw [happly]
        dsimp only
        rw [List.flatMap_cons, List.map_append, Text.lines_unlines_ending (hne hnonempty)
          (fun l hl => (hnews l hl).2) fun l hl => (hnews l hl).1]
        rfl

/-! ## The second pass -/

/-- No line is converted on the way through lines. -/
def Clean (config : FormatConfig) (style : IndentStyle) : FormatState → List Text → Prop
  | _, [] => True
  | st, line :: rest => (isCode st line = true → converts config st line = false) ∧
    Clean config style (advance config style st line).1 rest

theorem clean_append {first rest : List Text} :
    Clean config style st (first ++ rest) ↔
      Clean config style st first ∧ Clean config style (advanceAll config style st first).1 rest := by
  induction first generalizing st with
  | nil => simp [Clean, advanceAll]
  | cons line first ih => rw [List.cons_append, Clean, Clean, ih, and_assoc]; rfl

/-- A line without brace syntax is not converted. -/
theorem converts_of_isBraceSyntax (hbraces : Line.isBraceSyntax line false = false)
    (hst : Settled style.tabStop st) : converts config st line = false := by
  rw [converts, hst.plain, hbraces, Bool.and_false, Bool.false_and]

theorem clean_of_unbraced (ht : style.tabStop < 2 ^ 50) (hst : Settled style.tabStop st)
    (hlines : ∀ new ∈ lines, Unbraced style line new) : Clean config style st lines := by
  induction lines generalizing st with
  | nil => trivial
  | cons new rest ih =>
    have hnew := hlines new (List.mem_cons_self ..)
    exact ⟨fun _ => converts_of_isBraceSyntax hnew.braces hst,
      ih (hst.advance config ht hnew.column) fun l hl => hlines l (List.mem_cons_of_mem new hl)⟩

/-- Brace syntax that is left alone behind brace syntax is left alone. -/
theorem converts_bare (h : converts config st line = false) :
    converts config (bare st) line = false := by
  have hless : ∀ b, Line.isBraceSyntax line b = false → Line.isBraceSyntax line false = false := by
    intro b hb
    rw [Line.isBraceSyntax, Bool.or_eq_false_iff] at hb
    rw [Line.isBraceSyntax, Bool.false_and, Bool.false_and, Bool.false_or]
    exact hb.2
  simp only [converts, Bool.and_eq_false_iff] at h ⊢
  exact h.imp (fun h => h.imp id (hless _)) id

/-- The converted lines of a text are clean. -/
theorem clean_unbracedLines (ht : style.tabStop < 2 ^ 50) (hs : Settled style.tabStop s)
    (hfeed : ∀ line ∈ lines, '\n' ∉ line)
    (hlines : ∀ v ∈ visits config style st s index lines, Tame config style v.state v.again v.line) :
    Clean config style s (unbracedLines config style st index lines) := by
  induction lines generalizing st s index with
  | nil => trivial
  | cons line rest ih =>
    obtain ⟨hline, hnext⟩ := List.forall_mem_cons.1 hlines
    obtain ⟨hsettled, -, -⟩ := advanceAll_spec ht hs fun new hnew =>
      plain_of_mem_unbraced hline (hfeed line (List.mem_cons_self ..)) hnew
    rw [unbracedLines, clean_append]
    refine ⟨?_, ih hsettled (fun l hl => hfeed l (List.mem_cons_of_mem line hl)) hnext⟩
    rcases unbraced_cases hline with ⟨hsame, hconverts⟩ | ⟨first, others, heq, -, hunbraced, -⟩
    · have hagain := hline.again
      rw [hsame] at hagain ⊢
      refine ⟨fun hcode => ?_, trivial⟩
      have hcode' : isCode st line = true := by
        rw [← hcode, isCode, isCode, hagain.1.ignore, hagain.1.comment]
        rfl
      have hplain : s.afterBraces = (bare st).afterBraces := hs.plain
      rw [converts_congr hplain]
      exact converts_bare (hconverts hcode')
    · rw [heq]
      exact clean_of_unbraced ht hs hunbraced

/-- A formatted line is converted in the second pass if it was in the first one. -/
theorem converts_again {new : Text} (hst : Settled style.tabStop st) (halike : Alike line new)
    (hrep : Repeats st st') (h : isCode st line = true → converts config st line = false) :
    isCode st' new = true → converts config st' new = false := by
  obtain ⟨keep, -, rfl⟩ := hrep
  have htraits := halike.traits
  simp only [Line.traits, Line.Traits.mk.injEq] at htraits
  have hcode : isCode { st with keepBlanks := keep } new = isCode st line := by
    simp only [isCode, htraits, halike.ignore]
  rw [hcode]
  intro hline
  have hconverts := h hline
  simp only [converts, hst.plain, Line.isComment] at hconverts ⊢
  simp only [htraits, hconverts]

/-- No line of the formatted text is converted in the second pass. -/
theorem formatLines_unconverted (ht : style.tabStop < 2 ^ 50) (hst : Settled style.tabStop st)
    (hlines : ∀ line ∈ lines, Plain (unconverted config) style line)
    (hclean : Clean config style st lines) (hrep : Repeats st st') (index : Nat) :
    formatLines config style st' index (kept config style st lines) =
      formatLines (unconverted config) style st' index (kept config style st lines) := by
  induction lines generalizing st st' index with
  | nil => rfl
  | cons line rest ih =>
    have hline := hlines line (List.mem_cons_self ..)
    have hrest : ∀ l ∈ rest, Plain (unconverted config) style l :=
      fun l hl => hlines l (List.mem_cons_of_mem line hl)
    obtain ⟨hconverts, hclean'⟩ := hclean
    cases hdrops : drops config st line rest.head? with
    | true =>
      rw [advance_of_drops hdrops] at hclean'
      rw [kept, if_pos hdrops, advance_of_drops hdrops]
      exact ih hst hrest hclean' hrep index
    | false =>
      obtain ⟨-, hrep'⟩ := advance_again ht hst hline hrep
      have halike := alike_advance st hline
      obtain ⟨hstate, -⟩ := formatLine_eq index
        (kept config style (advance config style st line).1 rest).head? ht (hrep.settled hst)
        (regular_advance ht hst hline)
      rw [advance_unconverted] at hrep' halike hstate
      rw [kept, if_neg (by simp [hdrops]), formatLines, formatLines,
        formatLine_unconverted style index _ (converts_again hst halike hrep hconverts)]
      refine congrArg _ ?_
      rw [hstate]
      exact ih (hst.advance config ht hline.column) hrest hclean' hrep' (index + 1)

theorem kept_unconverted (config : FormatConfig) (style : IndentStyle) (st : FormatState)
    (lines : List Text) : kept (unconverted config) style st lines = kept config style st lines := by
  induction lines generalizing st with
  | nil => rfl
  | cons line rest ih => rw [kept, kept, ih]; rfl

theorem plain_unbracedLines (hfeed : ∀ line ∈ lines, '\n' ∉ line)
    (hlines : ∀ v ∈ visits config style st s index lines, Tame config style v.state v.again v.line) :
    ∀ line ∈ unbracedLines config style st index lines, Plain (unconverted config) style line := by
  induction lines generalizing st s index with
  | nil => exact fun line hline => nomatch hline
  | cons line rest ih =>
    intro new hnew
    rcases List.mem_append.1 hnew with hnew | hnew
    · exact (plain_of_mem_unbraced (hlines ⟨st, s, line⟩ (List.mem_cons_self ..))
        (hfeed line (List.mem_cons_self ..)) hnew).1
    · exact ih (fun l hl => hfeed l (List.mem_cons_of_mem line hl))
        (fun v hv => hlines v (List.mem_cons_of_mem _ hv)) new hnew

end Format

/-! ## Formatting twice -/

variable {config : FormatConfig} {style : IndentStyle} {text : Text}

/-- The lines of a formatted text are those that formatting the converted lines leaves. -/
theorem lines_formatText_converted (ht : style.tabStop < 2 ^ 50) (henabled : config.enabled = true)
    (hcount : text.lines.length ≤ positionLimit)
    (hlength : ∀ line ∈ text.lines, line.dropReturn.length < positionLimit)
    (hlines : ∀ v ∈ Format.visits config style {} {} 0 (text.lines.map Text.dropReturn),
      Format.Tame config style v.state v.again v.line) :
    (formatText config style text).lines.map Text.dropReturn = Format.kept config style {}
      (Format.unbracedLines config style {} 0 (text.lines.map Text.dropReturn)) := by
  have hst : Format.Settled style.tabStop (Format.bare {}) := Format.settled_start style.tabStop
  obtain ⟨changes, hfst, hedits, hlast, hkept⟩ := Format.exists_changes ht hst hst
    (fun line hline => Text.not_mem_of_mem_lines hline) hlines
  have hne : changes ≠ [] := by
    rintro rfl
    exact text.lines_ne_nil hfst.symm
  have hformat : formatEdits config style text = LineEdit.edits 0 changes := by
    rw [formatEdits, Format.results, if_pos henabled]
    exact hedits
  rw [formatText, hformat, Text.applyEdits_lines hfst.symm hcount hlength hlast,
    Text.lines_unlines_flatMap (LineEdit.applyAll_ne_nil hne hlast), hkept]
  rfl

/-- A sheet of nested rules, some of them on one line, with a selector that repeats the one
    before it. -/
def sheet : Text :=
  Text.unlines ([".card \x7b", "  color:red;", "  .title \x7b top: 0; margin:0 \x7d", "",
    "  &:hover \x7b", "    left: 0; // x", "  \x7d", "\x7d", "/* a; */", ".b,", ".c \x7b", "  top: 0;", "\x7d",
    ".c i \x7b", "  left: 0;", "\x7d", ".d \x7b .e \x7b top: 0; .f \x7b left: 0 \x7d \x7d .g \x7b top: 0 \x7d \x7d", "",
    "@keyframes h \x7b from \x7b top: 0 \x7d to \x7b top: 1px \x7d \x7d", ".i \x7b left: 0; \x7d", ""].map
      String.toList)

end IndentedSass
