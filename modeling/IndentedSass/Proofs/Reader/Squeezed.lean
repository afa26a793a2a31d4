/-
  Values with their blanks squeezed.

  Reading a value and writing it again changes its blanks only: of blanks outside of
  strings one space is left, and none at either end of the value or of an expression in it.

  * `Nesting` follows the strings and brackets of a text, `Nesting.Balanced` says that all
    of them are closed;
  * `Nesting.squeeze` is the text with its blanks squeezed, which keeps all else
    (`filter_squeeze`);
  * `ValueState.written` is the text of what was read so far; each character adds to it what
    `squeeze` keeps of it (`Follows.step`);
  * `render_readValue_squeezed`: a balanced value is written as it was, with its blanks squeezed.
-/
import Mathlib
import IndentedSass.Proofs.Reader.Rendered

namespace IndentedSass

/-! ## Squeezing blanks -/

/-- What a character of a value is. -/
inductive Glyph where
  /-- A space or a tab outside of strings. -/
  | blank
  /-- The last character of what opens an expression: a parenthesis or the brace of `#{`. -/
  | opening
  /-- The character that closes an open expression. -/
  | closing
  | other
  deriving DecidableEq

/-- What a text has left open. -/
structure Nesting where
  quote : Quote := .outside
  /-- The characters that close the open expressions, the innermost first. -/
  closers : List Char := []
  /-- Whether the next character is the brace of an interpolation. -/
  atBrace : Bool := false

namespace Nesting

/-- What the next character is. -/
def glyph (n : Nesting) (c : Char) : Glyph :=
  if n.atBrace then .opening
  else if !n.quote.isOutside then .other
  else if isBlank c then .blank
  else if c = '(' then .opening
  else if (c = ')' ∨ c = '\x7d') ∧ n.closers ≠ [] then .closing
  else .other

/-- What is open behind the next character, when `following` comes after it. -/
def next (n : Nesting) (c : Char) (following : Option Char) : Nesting where
  quote := n.quote.step .paired c
  closers :=
    match n.glyph c with
    | .opening => (if n.atBrace then '\x7d' else ')') :: n.closers
    | .closing => n.closers.tail
    | .blank | .other => n.closers
  atBrace := !n.atBrace && n.quote.isOutside && c == '#' && following == some '\x7b'

/-- Every expression is closed by its own bracket, and nothing stays open. -/
def Balanced : Nesting → Text → Prop
  | n, [] => n.quote = .outside ∧ n.closers = []
  | n, c :: cs =>
    (n.glyph c = .closing → n.closers.head? = some c) ∧ Balanced (n.next c cs.head?) cs

instance decidableBalanced : (n : Nesting) → (t : Text) → Decidable (Balanced n t)
  | n, [] => inferInstanceAs (Decidable (n.quote = .outside ∧ n.closers = []))
  | n, c :: cs =>
    haveI := decidableBalanced (n.next c cs.head?) cs
    inferInstanceAs (Decidable (_ ∧ _))

/-- The space that blanks leave, where something stands before them. -/
def space (filled gap : Bool) : Text := if filled && gap then [' '] else []

/-- The text with its blanks squeezed; `filled` tells that something stands before it in the
    innermost open expression, `gap` that blanks do. -/
def squeeze : (n : Nesting) → (filled gap : Bool) → Text → Text
  | _, _, _, [] => []
  | n, filled, gap, c :: cs =>
    match n.glyph c with
    | .blank => squeeze (n.next c cs.head?) filled true cs
    | .opening => space filled gap ++ c :: squeeze (n.next c cs.head?) false false cs
    | .closing => c :: squeeze (n.next c cs.head?) true false cs
    | .other => space filled gap ++ c :: squeeze (n.next c cs.head?) true false cs

variable {n : Nesting} {c : Char}

theorem isBlank_of_glyph (h : n.glyph c = .blank) : isBlank c = true := by
  unfold glyph at h
  split_ifs at h with _ _ hblank
  exact hblank

/-- Squeezing blanks changes nothing else. -/
theorem filter_squeeze (n : Nesting) (filled gap : Bool) (t : Text) :
    (squeeze n filled gap t).filter (!isBlank ·) = t.filter (!isBlank ·) := by
  induction t generalizing n filled gap with
  | nil => rfl
  | cons c cs ih =>
    have hspace : (space filled gap).filter (!isBlank ·) = [] := by
      unfold space
      split <;> rfl
    rw [squeeze]
    cases hglyph : n.glyph c with
    | blank =>
      rw [List.filter_cons_of_neg (by simp [isBlank_of_glyph hglyph])]
      exact ih ..
    | closing => simp only [List.filter_cons, ih]
    | opening | other =>
      simp only [List.filter_append, hspace, List.nil_append, List.filter_cons, ih]

/-- A blank leaves open what is open. -/
theorem next_blank (hbrace : n.atBrace = false) (hquote : n.quote = .outside)
    (hblank : isBlank c = true) (following : Option Char) :
    n.glyph c = .blank ∧ n.next c following = n := by
  have hglyph : n.glyph c = .blank := by simp [glyph, hbrace, hquote, Quote.isOutside, hblank]
  refine ⟨hglyph, ?_⟩
  obtain ⟨quote, closers, atBrace⟩ := n
  cases hbrace
  cases hquote
  rcases isBlank_iff.1 hblank with rfl | rfl <;>
    simp [next, hglyph, Quote.step, isQuoteMark]

/-- The brace of an interpolation opens it. -/
theorem next_brace (hbrace : n.atBrace = true) (hquote : n.quote = .outside)
    (following : Option Char) :
    n.glyph '\x7b' = .opening ∧
      n.next '\x7b' following =
        { n with closers := '\x7d' :: n.closers, atBrace := false } := by
  have hglyph : n.glyph '\x7b' = .opening := by rw [glyph, if_pos hbrace]
  exact ⟨hglyph, by simp [next, hglyph, hbrace, hquote, Quote.step, isQuoteMark]⟩

/-- The mark before such a brace only announces it. -/
theorem next_hash (hbrace : n.atBrace = false) (hquote : n.quote = .outside) :
    n.glyph '#' = .other ∧ n.next '#' (some '\x7b') = { n with atBrace := true } := by
  have hglyph : n.glyph '#' = .other := by simp [glyph, hbrace, isBlank]
  refine ⟨hglyph, ?_⟩
  simp [next, hglyph, hbrace, hquote, Quote.step, isQuoteMark, Quote.isOutside]

/-- A parenthesis opens an expression. -/
theorem next_paren (hbrace : n.atBrace = false) (hquote : n.quote = .outside)
    (following : Option Char) :
    n.glyph '(' = .opening ∧ n.next '(' following = { n with closers := ')' :: n.closers } := by
  have hglyph : n.glyph '(' = .opening := by
    simp [glyph, hbrace, hquote, Quote.isOutside, isBlank]
  exact ⟨hglyph, by simp [next, hglyph, hbrace, hquote, Quote.step, isQuoteMark]⟩

/-- A closing bracket closes the innermost of the open expressions. -/
theorem next_closer (hbrace : n.atBrace = false) (hquote : n.quote = .outside)
    (hc : c = ')' ∨ c = '\x7d') (hopen : n.closers ≠ []) (following : Option Char) :
    n.glyph c = .closing ∧ n.next c following = { n with closers := n.closers.tail } := by
  have hglyph : n.glyph c = .closing := by
    rcases hc with rfl | rfl <;> simp [glyph, hbrace, hquote, Quote.isOutside, isBlank, hopen]
  refine ⟨hglyph, ?_⟩
  rcases hc with rfl | rfl <;>
    simp [next, hglyph, hbrace, hquote, Quote.step, isQuoteMark]

/-- Any other character, unless it announces an interpolation, at most begins or ends a string. -/
theorem next_other (hbrace : n.atBrace = false) (hglyph : n.glyph c = .other)
    {following : Option Char}
    (hhash : ¬(n.quote.isOutside = true ∧ c = '#' ∧ following = some '\x7b')) :
    n.next c following = { n with quote := n.quote.step .paired c } := by
  simp only [next, hglyph, Nesting.mk.injEq, true_and, hbrace]
  simpa [and_assoc] using hhash

/-- Of blanks alone nothing is left. -/
theorem squeeze_of_blanks {t : Text} (hbrace : n.atBrace = false) (hquote : n.quote = .outside)
    (h : ∀ c ∈ t, isBlank c = true) (filled gap : Bool) : squeeze n filled gap t = [] := by
  induction t generalizing gap with
  | nil => rfl
  | cons c cs ih =>
    obtain ⟨hglyph, hnext⟩ := next_blank hbrace hquote (h c (List.mem_cons_self ..)) cs.head?
    rw [squeeze, hglyph, hnext]
    exact ih (fun d hd => h d (List.mem_cons_of_mem c hd)) true

end Nesting

/-! ## What was read, as text -/

namespace Value

/-- The space before a part; the first part of an expression has none. -/
def lead (before : List Value) (joined : Bool) : Text := if before.isEmpty then [] else gap joined

/-- The text of an expression grows by that of each part. -/
theorem dropSpace_render_concat {inner : Bool} {vs : List Value} {v : Value}
    (h : Readable inner .nothing (vs ++ [v])) :
    dropSpace (render (vs ++ [v])) = dropSpace (render vs) ++ (lead vs v.joined ++ bare v) := by
  cases vs with
  | nil =>
    rw [List.nil_append, (ValueState.dropSpace_render h).2]
    simp [lead, render, dropSpace]
  | cons w ws =>
    have hfront := (readable_append.1 h).1
    rw [List.cons_append] at h ⊢
    rw [(ValueState.dropSpace_render h).2, (ValueState.dropSpace_render hfront).2,
      render_append, List.append_assoc, render, render, List.append_nil, renderOne_eq]
    rfl

/-- A value is its text without the first space, with that space. -/
theorem render_eq_dropSpace {inner : Bool} {vs : List Value} (h : Readable inner .nothing vs)
    (hne : vs ≠ []) : render vs = ' ' :: dropSpace (render vs) := by
  obtain ⟨v, vs, rfl⟩ := List.exists_cons_of_ne_nil hne
  obtain ⟨hjoined, htext⟩ := ValueState.dropSpace_render h
  rw [htext, render, renderOne_eq, hjoined]
  rfl

/-- Parts are written with at least one character. -/
theorem dropSpace_render_ne_nil {inner : Bool} {vs : List Value} (h : Readable inner .nothing vs)
    (hne : vs ≠ []) : dropSpace (render vs) ≠ [] := by
  obtain ⟨v, vs, rfl⟩ := List.exists_cons_of_ne_nil hne
  rw [(ValueState.dropSpace_render h).2]
  exact List.append_ne_nil_of_left_ne_nil h.1.bare_ne_nil _

end Value

namespace ValueState

open Value (lead)

variable {lookup : Lookups} {place : ValuePlace} {st : ValueState} {c : Char} {t out : Text}
  {n : Nesting} {filled gap : Bool}

/-- The text of the finished parts, the open expressions included. -/
def framesText : List OpenCompound → List Value → Text
  | [], body => Value.dropSpace (Value.render body)
  | o :: os, body =>
    framesText os body ++ (lead (innermost { opened := os, body }) o.joined ++
      (o.form.opening ++ Value.dropSpace (Value.render o.body)))

/-- The text of what was read, with its blanks squeezed. -/
def written (st : ValueState) : Text :=
  framesText st.opened st.body ++
    if st.word.isEmpty then [] else lead st.innermost st.joins ++ st.word

theorem Framed.readable_innermost (h : Framed st.opened st.body) :
    Value.Readable (!st.opened.isEmpty) .nothing st.innermost := by
  obtain ⟨body, opened, word, spaced, quote, atBrace, count, ds⟩ := st
  cases opened with
  | nil => exact h
  | cons o os => exact h.1

/-- A part is written behind what was read. -/
theorem framesText_push (st : ValueState) (h : Framed st.opened st.body) {v : Value}
    (hv : Value.ReadableOne (!st.opened.isEmpty) (Value.lastBefore .nothing st.innermost) v) :
    framesText (st.push v).opened (st.push v).body =
      framesText st.opened st.body ++ (lead st.innermost v.joined ++ Value.bare v) := by
  have hreadable := Value.readable_append.2
    ⟨h.readable_innermost, show Value.Readable _ _ [v] from ⟨hv, trivial⟩⟩
  obtain ⟨body, opened, word, spaced, quote, atBrace, count, ds⟩ := st
  cases opened with
  | nil => exact Value.dropSpace_render_concat hreadable
  | cons o os =>
    have hbody := Value.dropSpace_render_concat hreadable
    simp only [push, framesText, List.append_assoc] at hbody ⊢
    exact congrArg (fun text => _ ++ (_ ++ (_ ++ text))) hbody

/-- The end of a word changes nothing. -/
theorem written_flush {next : Option Char} (h : st.Tidy next) (lookup : Lookups)
    (place : ValuePlace) : framesText (st.flush lookup place).opened (st.flush lookup place).body =
      st.written := by
  unfold ValueState.flush written
  split
  · exact (List.append_nil _).symm
  · rename_i hne
    have hword : st.word ≠ [] := by simpa using hne
    dsimp only
    split
    · exact framesText_push { st with word := [] } h.framed ⟨hword, h.word, ‹_›, h.joins⟩
    · exact framesText_push { st with word := [], diagnostics := _ } h.framed
        ⟨h.word, ‹_›, h.joins⟩

/-- The end of an expression is its closing bracket. -/
theorem framesText_close (h : Framed st.opened st.body) {o : OpenCompound} {os : List OpenCompound}
    (hopened : st.opened = o :: os) :
    framesText st.close.opened st.close.body =
      framesText st.opened st.body ++ o.form.closing := by
  rw [hopened] at h
  have hpush := framesText_push { st with opened := os } h.2.2
    (Value.readableOne_compound.2 ⟨h.2.1, h.1⟩)
  simp only [close, hopened, hpush, framesText, Value.bare, Value.joined, List.append_assoc]
  rfl

/-- The brackets that close what is open. -/
def closings (st : ValueState) : List Text := st.opened.map (·.form.closing)

theorem closings_push (st : ValueState) (v : Value) : (st.push v).closings = st.closings := by
  obtain ⟨body, opened, word, spaced, quote, atBrace, count, ds⟩ := st
  cases opened <;> rfl

theorem closings_flush (lookup : Lookups) (place : ValuePlace) (st : ValueState) :
    (st.flush lookup place).closings = st.closings := by
  unfold ValueState.flush
  split
  · rfl
  · dsimp only
    split <;> exact closings_push ..

theorem closings_close (st : ValueState) : st.close.closings = st.closings.tail := by
  unfold close
  split
  · rename_i hopened
    rw [closings, hopened]
    rfl
  · rename_i o os hopened
    rw [closings_push, closings, closings, hopened]
    rfl

theorem written_keep (st : ValueState) (c : Char) :
    (st.keep c).written =
      st.written ++ ((if st.word.isEmpty then lead st.innermost st.joins else []) ++ [c]) := by
  have hkept : (st.keep c).written =
      framesText st.opened st.body ++ (lead st.innermost st.joins ++ (st.word ++ [c])) := by
    rw [written, show (st.keep c).word.isEmpty = false from
      List.isEmpty_eq_false_iff.2 (by simp [keep])]
    rfl
  rw [hkept, written]
  cases st.word <;> simp

theorem framesText_enter (st : ValueState) (form : Form) :
    framesText (st.enter form).opened (st.enter form).body =
      framesText st.opened st.body ++ (lead st.innermost st.joins ++ form.opening) := by
  have hbody : ∀ text : Text, text ++ Value.dropSpace (Value.render []) = text :=
    fun text => List.append_nil text
  simp only [enter, framesText, hbody]
  rfl

variable (lookup place) in
/-- Behind a word that was ended nothing is written before the next part. -/
theorem lead_flush (st : ValueState) :
    lead (st.flush lookup place).innermost (st.flush lookup place).joins =
      if st.word.isEmpty then lead st.innermost st.joins else [] := by
  by_cases hword : st.word = []
  · rw [flush_nil _ _ hword, hword]
    rfl
  · obtain ⟨-, hspaced, hparts⟩ := flush_word lookup place hword
    rw [if_neg (by simpa using hword), lead, joins, hspaced]
    cases (st.flush lookup place).innermost.isEmpty <;> rfl

variable (lookup place) in
theorem isEmpty_innermost_flush (st : ValueState) :
    (st.flush lookup place).innermost.isEmpty = (st.word.isEmpty && st.innermost.isEmpty) := by
  by_cases hword : st.word = []
  · rw [flush_nil _ _ hword, hword]
    rfl
  · obtain ⟨-, -, hparts⟩ := flush_word lookup place hword
    rw [← Value.isEmpty_shape, hparts, Value.isEmpty_shape, List.isEmpty_eq_false_iff.2 hword]
    simp

/-! ## One character after the other -/

/-- A state and what is known of the text agree; `out` is the squeezed text. -/
structure Follows (n : Nesting) (filled gap : Bool) (out : Text) (st : ValueState) : Prop where
  quote : st.quote = n.quote
  brace : st.atBrace = n.atBrace
  closings : st.closings = ((if n.atBrace then ['\x7d'] else []) ++ n.closers).map fun c => [c]
  written : st.written = out ++ if n.atBrace then ['\x7b'] else []
  /-- Something stands before the next character, unless an expression begins there. -/
  filled_eq : filled = (n.atBrace || !(st.word.isEmpty && st.innermost.isEmpty))
  /-- A space is written before the next character when it is one before the next part. -/
  space_eq : Nesting.space filled gap =
    if st.word.isEmpty && !n.atBrace then lead st.innermost st.joins else []
  /-- Nothing was read of an interpolation of which the brace is still to come. -/
  opened : n.atBrace = true → st.word = [] ∧ st.innermost = []

theorem follows_start : Follows {} false false [] {} where
  quote := rfl
  brace := rfl
  closings := rfl
  written := rfl
  filled_eq := rfl
  space_eq := rfl
  opened := nofun

theorem Follows.counted (h : Follows n filled gap out st) (count : Nat) :
    Follows n filled gap out { st with count } :=
  ⟨h.quote, h.brace, h.closings, h.written, h.filled_eq, h.space_eq, h.opened⟩

/-- Outside of the start of an interpolation less is to be known. -/
theorem follows_of (hbrace : n.atBrace = false) (hquote : st.quote = n.quote)
    (hatBrace : st.atBrace = false) (hclosings : st.closings = n.closers.map fun c => [c])
    (hwritten : st.written = out) (hfilled : filled = !(st.word.isEmpty && st.innermost.isEmpty))
    (hspace : Nesting.space filled gap =
      if st.word.isEmpty then lead st.innermost st.joins else []) :
    Follows n filled gap out st where
  quote := hquote
  brace := hatBrace.trans hbrace.symm
  closings := by rw [hclosings, hbrace]; rfl
  written := by rw [hwritten, hbrace]; exact (List.append_nil _).symm
  filled_eq := by rw [hfilled, hbrace]; rfl
  space_eq := by rw [hspace, hbrace, Bool.not_false, Bool.and_true]
  opened hopen := absurd (hopen.symm.trans hbrace) (by decide)

/-- A character of a word. -/
theorem Follows.keep (h : Follows n filled gap out st) (hbrace : n.atBrace = false) :
    Follows { n with quote := n.quote.step .paired c } true false
      (out ++ (Nesting.space filled gap ++ [c])) (st.keep c) := by
  obtain ⟨hquote, hatBrace, hclosings, hwritten, -, hspace, -⟩ := h
  rw [hbrace] at hatBrace hclosings hwritten hspace
  rw [Bool.not_false, Bool.and_true] at hspace
  refine follows_of hbrace (congrArg (Quote.step .paired · c) hquote) hatBrace hclosings ?_ ?_ ?_
  · rw [written_keep, hwritten, hspace]
    exact congrArg (· ++ _) (List.append_nil out)
  · simp [ValueState.keep]
  · simp [Nesting.space, ValueState.keep]

/-- The brace of an interpolation. -/
theorem Follows.atBrace (h : Follows n filled gap out st) (hbrace : n.atBrace = true) :
    Follows { n with closers := '\x7d' :: n.closers, atBrace := false } false false
      (out ++ (Nesting.space filled gap ++ ['\x7b'])) { st with atBrace := false } := by
  obtain ⟨hquote, -, hclosings, hwritten, -, hspace, hopened⟩ := h
  obtain ⟨hword, hinner⟩ := hopened hbrace
  have hinner' : innermost { st with atBrace := false } = [] := hinner
  rw [hbrace] at hclosings hwritten hspace
  refine follows_of rfl hquote rfl hclosings ?_ ?_ ?_
  · refine Eq.trans (show _ = st.written from rfl) (hwritten.trans ?_)
    simp [hspace]
  · rw [hinner', show ValueState.word _ = st.word from rfl, hword]
    rfl
  · rw [hinner', show ValueState.word _ = st.word from rfl, hword]
    rfl

section

variable {next : Option Char} (lookup : Lookups) (place : ValuePlace)

/-- Blanks are written later. -/
theorem Follows.blank (h : Follows n filled gap out st) (htidy : st.Tidy next)
    (hbrace : n.atBrace = false) :
    Follows n filled true out { st.flush lookup place with spaced := true } := by
  obtain ⟨hquote, hatBrace, hclosings, hwritten, hfilled, -, -⟩ := h
  rw [hbrace] at hatBrace hclosings hwritten hfilled
  rw [← closings_flush lookup place st] at hclosings
  rw [← written_flush htidy lookup place] at hwritten
  rw [Bool.false_or, ← isEmpty_innermost_flush lookup place st] at hfilled
  obtain ⟨hflush, hflush', hword⟩ := flush_frame lookup place st
  generalize st.flush lookup place = flushed at *
  refine follows_of hbrace (hflush.trans hquote) (hflush'.trans hatBrace) hclosings ?_ ?_ ?_
  · rw [ValueState.written, hword]
    exact (List.append_nil _).trans (hwritten.trans (List.append_nil _))
  · rw [hfilled, hword]
    rfl
  · have hlead : lead flushed.innermost false = Nesting.space filled true := by
      rw [hfilled, lead]
      cases flushed.innermost.isEmpty <;> rfl
    rw [← hlead, hword]
    rfl

/-- The start of an interpolation ends a word. -/
theorem Follows.interpolation (h : Follows n filled gap out st) (htidy : st.Tidy next)
    (hbrace : n.atBrace = false) :
    Follows { n with atBrace := true } true false (out ++ (Nesting.space filled gap ++ ['#']))
      { (st.flush lookup place).enter .interpolation with atBrace := true } := by
  obtain ⟨hquote, -, hclosings, hwritten, -, hspace, -⟩ := h
  rw [hbrace] at hclosings hwritten hspace
  rw [← closings_flush lookup place st] at hclosings
  rw [← written_flush htidy lookup place] at hwritten
  rw [Bool.not_false, Bool.and_true, ← lead_flush lookup place st] at hspace
  obtain ⟨hflush, -, hword⟩ := flush_frame lookup place st
  generalize st.flush lookup place = flushed at *
  refine ⟨hflush.trans hquote, rfl, congrArg (['\x7d'] :: ·) hclosings, ?_, rfl, ?_,
    fun _ => ⟨hword, rfl⟩⟩
  · have hall : ValueState.written { flushed.enter .interpolation with atBrace := true } =
        framesText (flushed.enter .interpolation).opened (flushed.enter .interpolation).body ++
          if flushed.word.isEmpty then [] else _ := rfl
    rw [hall, framesText_enter, hwritten, hword, ← hspace]
    simp [Form.opening]
  · simp [Nesting.space]

/-- A parenthesis makes a word the name of a call. -/
theorem Follows.call (h : Follows n filled gap out st) (hbrace : n.atBrace = false) :
    Follows { n with closers := ')' :: n.closers } false false
      (out ++ (Nesting.space filled gap ++ ['(']))
      (({ st with word := [] } : ValueState).enter (.call st.word)) := by
  obtain ⟨hquote, hatBrace, hclosings, hwritten, -, hspace, -⟩ := h
  rw [hbrace] at hatBrace hclosings hwritten hspace
  rw [Bool.not_false, Bool.and_true] at hspace
  refine follows_of hbrace hquote hatBrace (congrArg ([')'] :: ·) hclosings) ?_ rfl rfl
  have henter := framesText_enter { st with word := [] } (.call st.word)
  refine Eq.trans (List.append_nil _) (henter.trans ?_)
  have hinner : innermost { st with word := [] } = st.innermost := rfl
  have hjoins : joins { st with word := [] } = st.joins := rfl
  rw [ValueState.written] at hwritten
  simp only [Bool.false_eq_true, if_false, List.append_nil] at hwritten
  rw [hinner, hjoins, hspace, ← hwritten, Form.opening]
  cases st.word <;> simp

/-- The end of an expression. -/
theorem Follows.close (h : Follows n filled gap out st) (htidy : st.Tidy next)
    (hbrace : n.atBrace = false) (hclose : n.closers.head? = some c) :
    Follows { n with closers := n.closers.tail } true false (out ++ [c])
      (st.flush lookup place).close := by
  obtain ⟨hquote, hatBrace, hclosings, hwritten, -, -, -⟩ := h
  rw [hbrace] at hatBrace hclosings hwritten
  rw [← closings_flush lookup place st] at hclosings
  rw [← written_flush htidy lookup place] at hwritten
  obtain ⟨hflush, hflush', hword⟩ := flush_frame lookup place st
  have hframed := htidy.flush lookup place
  generalize st.flush lookup place = flushed at *
  obtain ⟨closers, hclosers⟩ := List.head?_eq_some_iff.1 hclose
  rw [hclosers] at hclosings
  obtain ⟨o, os, hopened, hform, -⟩ := List.map_eq_cons_iff.1 hclosings
  have hcloseword : flushed.close.word = [] := (word_close flushed).trans hword
  obtain ⟨hcloses, hcloses'⟩ := close_frame flushed
  have hlast : flushed.close.innermost.isEmpty = false ∧ flushed.close.spaced = false := by
    simp [ValueState.close, hopened]
  refine follows_of hbrace (hcloses.trans (hflush.trans hquote))
    (hcloses'.trans (hflush'.trans hatBrace)) ?_ ?_ ?_ ?_
  · rw [closings_close, hclosings, hclosers]
    rfl
  · rw [ValueState.written, hcloseword, framesText_close hframed hopened, hwritten, hform]
    simp
  · rw [hcloseword, hlast.1]
    rfl
  · rw [hcloseword, lead, joins, hlast.1, hlast.2]
    rfl

end

variable (lookup place) in
/-- A character adds to the text what squeezing leaves of it. -/
theorem Follows.step (rest : Text) (h : Follows n filled gap out st) (htidy : st.Tidy (some c))
    (hbrace : n.atBrace = true → c = '\x7b')
    (hclose : n.glyph c = .closing → n.closers.head? = some c) :
    ∃ filled' gap' piece,
      n.squeeze filled gap (c :: rest) = piece ++ (n.next c rest.head?).squeeze filled' gap' rest ∧
        Follows (n.next c rest.head?) filled' gap' (out ++ piece)
          (st.step lookup place c rest.head?) := by
  -- `act` and `glyph` look at a character in the same order
  suffices hact : ∃ filled' gap' piece,
      n.squeeze filled gap (c :: rest) = piece ++ (n.next c rest.head?).squeeze filled' gap' rest ∧
        Follows (n.next c rest.head?) filled' gap' (out ++ piece)
          (st.act lookup place c rest.head?) by
    obtain ⟨filled', gap', piece, hsqueeze, hfollows⟩ := hact
    exact ⟨filled', gap', piece, hsqueeze, hfollows.counted _⟩
  rw [Nesting.squeeze]
  unfold act
  cases hatBrace : n.atBrace with
  | true =>
    obtain rfl := hbrace hatBrace
    have hquote : n.quote = .outside := by
      rw [← h.quote, htidy.quote, (h.opened hatBrace).1]
      rfl
    obtain ⟨hglyph, hnext⟩ := Nesting.next_brace hatBrace hquote rest.head?
    rw [hglyph, hnext, if_pos (h.brace.trans hatBrace)]
    exact ⟨false, false, _, by rw [List.append_assoc, List.singleton_append], h.atBrace hatBrace⟩
  | false =>
    rw [if_neg (by rw [h.brace, hatBrace]; exact Bool.false_ne_true)]
    have hkeep : n.glyph c = .other →
        ¬(n.quote.isOutside = true ∧ c = '#' ∧ rest.head? = some '\x7b') →
        Follows (n.next c rest.head?) true false (out ++ (Nesting.space filled gap ++ [c]))
          (st.keep c) := by
      intro hglyph hhash
      rw [Nesting.next_other hatBrace hglyph hhash]
      exact h.keep hatBrace
    cases houtside : n.quote.isOutside with
    | false =>
      have hglyph : n.glyph c = .other := by simp [Nesting.glyph, hatBrace, houtside]
      rw [hglyph, if_pos (by rw [h.quote, houtside]; rfl)]
      exact ⟨true, false, _, by rw [List.append_assoc, List.singleton_append],
        hkeep hglyph (by simp [houtside])⟩
    | true =>
      have hquote : n.quote = .outside := Quote.isOutside_iff.1 houtside
      have hempty : st.opened.isEmpty = n.closers.isEmpty := by
        have hlength := congrArg List.isEmpty h.closings
        simpa [ValueState.closings, hatBrace] using hlength
      rw [if_neg (by rw [h.quote, houtside]; decide)]
      by_cases hblank : isBlank c = true
      · obtain ⟨hglyph, hnext⟩ := Nesting.next_blank hatBrace hquote hblank rest.head?
        rw [if_pos hblank, hglyph, hnext]
        exact ⟨filled, true, [], rfl, by rw [List.append_nil]; exact h.blank _ _ htidy hatBrace⟩
      rw [if_neg hblank]
      by_cases hhash : c = '#' ∧ rest.head? = some '\x7b'
      · rw [if_pos hhash]
        obtain ⟨rfl, hrest⟩ := hhash
        obtain ⟨hglyph, hnext⟩ := Nesting.next_hash hatBrace hquote
        rw [hglyph, hrest, hnext]
        exact ⟨true, false, _, by rw [List.append_assoc, List.singleton_append],
          h.interpolation _ _ htidy hatBrace⟩
      rw [if_neg hhash]
      by_cases hparen : c = '('
      · rw [if_pos hparen]
        subst hparen
        obtain ⟨hglyph, hnext⟩ := Nesting.next_paren hatBrace hquote rest.head?
        rw [hglyph, hnext]
        exact ⟨false, false, Nesting.space filled gap ++ ['('],
          by rw [List.append_assoc, List.singleton_append], h.call hatBrace⟩
      rw [if_neg hparen]
      by_cases hcloser : (c = ')' ∨ c = '\x7d') ∧ n.closers ≠ []
      · have hfilled : ¬n.closers.isEmpty = true := by simpa using hcloser.2
        obtain ⟨hglyph, hnext⟩ :=
          Nesting.next_closer hatBrace hquote hcloser.1 hcloser.2 rest.head?
        rw [if_pos hcloser.1, hempty, if_neg hfilled, hglyph, hnext]
        exact ⟨true, false, [c], rfl, h.close _ _ htidy hatBrace (hclose hglyph)⟩
      -- a closing bracket is kept as any other character where nothing is open
      have hglyph : n.glyph c = .other := by
        simp [Nesting.glyph, hatBrace, houtside, hblank, hparen, hcloser]
      have hstays : (if c = ')' ∨ c = '\x7d' then
          if st.opened.isEmpty then st.keep c else (st.flush lookup place).close
          else st.keep c) = st.keep c := by
        by_cases hmark : c = ')' ∨ c = '\x7d'
        · rw [if_pos hmark, hempty, if_pos (List.isEmpty_iff.2 (not_not.1 fun hopen =>
            hcloser ⟨hmark, hopen⟩))]
        · rw [if_neg hmark]
      rw [hglyph, hstays]
      exact ⟨true, false, _, by rw [List.append_assoc, List.singleton_append],
        hkeep hglyph fun hh => hhash hh.2⟩

variable (lookup place) in
/-- The squeezed text is what was read. -/
theorem Follows.run (h : Follows n filled gap out st) (htidy : st.Tidy t.head?)
    (hbrace : n.atBrace = true → t.head? = some '\x7b') (hbalanced : n.Balanced t) :
    (st.run lookup place t).written = out ++ n.squeeze filled gap t ∧
      (st.run lookup place t).opened = [] := by
  induction t generalizing n filled gap out st with
  | nil =>
    have hatBrace : n.atBrace = false := Bool.eq_false_iff.2 fun h => nomatch hbrace h
    have hclosings := h.closings
    rw [hatBrace, hbalanced.2] at hclosings
    refine ⟨h.written.trans ?_, List.map_eq_nil_iff.1 hclosings⟩
    rw [hatBrace]
    rfl
  | cons c rest ih =>
    obtain ⟨hclose, hrest⟩ := hbalanced
    obtain ⟨filled', gap', piece, hsqueeze, hfollows⟩ :=
      h.step lookup place rest htidy (fun hb => Option.some.inj (hbrace hb)) hclose
    have hact := htidy.act lookup place rest.head?
    have hnext : (n.next c rest.head?).atBrace = true → rest.head? = some '\x7b' := by
      simp only [Nesting.next, Bool.and_eq_true, beq_iff_eq]
      exact fun hb => hb.2
    rw [hsqueeze, ← List.append_assoc]
    exact ih hfollows ⟨hact.framed, hact.word, hact.quote, hact.joins, hact.hash, hact.brace⟩
      hnext hrest

end ValueState

/-- A value whose strings and brackets are closed is written as it was, with its blanks
    squeezed: nothing else is added, dropped or moved. -/
theorem render_readValue_squeezed (lookup : Lookups) (place : ValuePlace) (raw : Text)
    (h : Nesting.Balanced {} raw) :
    Value.render (readValue lookup place raw).1 =
        (if raw.all isBlank then [] else ' ' :: Nesting.squeeze {} false false raw) ∧
      (Value.render (readValue lookup place raw).1).filter (!isBlank ·) =
        raw.filter (!isBlank ·) := by
  have htidy := ValueState.tidy_start raw.head?
  have hrun := htidy.run lookup place
  obtain ⟨hwritten, hopened⟩ := ValueState.follows_start.run lookup place htidy nofun h
  rw [List.nil_append, ← ValueState.written_flush hrun lookup place] at hwritten
  have hflush : ((ValueState.run lookup place {} raw).flush lookup place).opened = [] := by
    have haround := ValueState.closings_flush lookup place (ValueState.run lookup place {} raw)
    rw [ValueState.closings, ValueState.closings, hopened] at haround
    exact List.map_eq_nil_iff.1 haround
  have hreadable := readable_readValue lookup place raw
  have htext : Value.dropSpace (Value.render (readValue lookup place raw).1) =
      Nesting.squeeze {} false false raw := by
    rw [hflush] at hwritten
    rw [← hwritten, readValue, ValueState.finish]
    dsimp only
    rw [hflush]
    rfl
  have hfilter := Nesting.filter_squeeze {} false false raw
  by_cases hblank : raw.all isBlank = true
  · -- no part is written with no characters
    have hnone : (readValue lookup place raw).1 = [] := by
      by_contra hne
      refine Value.dropSpace_render_ne_nil hreadable hne (htext.trans ?_)
      exact Nesting.squeeze_of_blanks rfl rfl (List.all_eq_true.1 hblank) false false
    rw [if_pos hblank, ← hfilter, ← htext, hnone]
    exact ⟨rfl, rfl⟩
  · have hne : (readValue lookup place raw).1 ≠ [] := by
      intro hnone
      rw [hnone] at htext
      rw [← htext] at hfilter
      refine hblank (List.all_eq_true.2 fun c hc => ?_)
      simpa using List.filter_eq_nil_iff.1 hfilter.symm c hc
    rw [if_neg hblank, ← hfilter, Value.render_eq_dropSpace hreadable hne, htext]
    exact ⟨rfl, rfl⟩

/-- An interpolation in a call loses the white space inside its delimiters, a string keeps its own, and a
    parenthesis that closes nothing stays. -/
theorem render_readValue_squeezed_nested :
    Nesting.Balanced {} " a(  $b , #\x7b c \x7dd ) \t 'e  f' )  ".toList ∧
      Value.render (readValue (fun _ _ _ _ => none) ⟨0, 0, 0⟩
        " a(  $b , #\x7b c \x7dd ) \t 'e  f' )  ".toList).1 = " a($b , #\x7bc\x7dd) 'e  f' )".toList := by
  have hbalanced : Nesting.Balanced {} " a(  $b , #\x7b c \x7dd ) \t 'e  f' )  ".toList := by decide
  have hrender := (render_readValue_squeezed (fun _ _ _ _ => none) ⟨0, 0, 0⟩ _ hbalanced).1
  exact ⟨hbalanced, hrender.trans (by decide)⟩

end IndentedSass
