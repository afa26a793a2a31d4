/-
  Values that are read back.

  A value is written with one space before each part that is not joined to the one before
  it.  Reading that text gives the parts again, provided that no string is left open before
  the end of the value: what is written behind an open string becomes part of it.

  * `Value.Readable` says what parts can stand side by side: words hold no blanks and no
    parentheses outside of strings, and only an interpolation is joined to a word;
  * `readable_readValue`: what was read is readable;
  * `Value.Closed`: every string is closed, except perhaps one that reaches to the end;
  * `valueParts_render`: a readable value without open strings is read back;
  * `valueParts_render_valueParts`: so is what was read, and its text is one line
    (`feed_render_valueParts`).
-/
import Mathlib
import IndentedSass.Proofs.Line.Quotes
import IndentedSass.Proofs.Reader.Alone

namespace IndentedSass

/-! ## Words -/

namespace Text

/-- A character that does not end a word outside of strings; `inner` in a compound, `hash`
    right behind a `#`. -/
def keepsWord (inner hash : Bool) (c : Char) : Bool :=
  !isBlank c && c != '(' && !(hash && c == '\x7b') && !(inner && (c == ')' || c == '\x7d'))

/-- The text is read as one word, from a state of the strings on. -/
def IsWord (inner : Bool) : (hash : Bool) → Quote → Text → Prop
  | _, _, [] => True
  | hash, q, c :: cs =>
    (q.isOutside = true → keepsWord inner hash c = true) ∧
      IsWord inner (q.isOutside && c == '#') (q.step .paired c) cs

/-- Whether the text ends in a `#` outside of strings. -/
def endsInHash : (hash : Bool) → Quote → Text → Bool
  | hash, _, [] => hash
  | _, q, c :: cs => endsInHash (q.isOutside && c == '#') (q.step .paired c) cs

theorem isWord_snoc {inner hash : Bool} {q : Quote} {t : Text} {c : Char} :
    IsWord inner hash q (t ++ [c]) ↔ IsWord inner hash q t ∧
      ((Quote.run .paired q t).isOutside = true →
        keepsWord inner (endsInHash hash q t) c = true) := by
  induction t generalizing hash q with
  | nil => simp [IsWord, endsInHash, Quote.run]
  | cons d t ih =>
    rw [List.cons_append, IsWord, IsWord, ih, and_assoc]
    rfl

theorem endsInHash_snoc (hash : Bool) (q : Quote) (t : Text) (c : Char) :
    endsInHash hash q (t ++ [c]) = ((Quote.run .paired q t).isOutside && c == '#') := by
  induction t generalizing hash q with
  | nil => rfl
  | cons d t ih => exact ih _ _

end Text

namespace ValueState

variable {lookup : Lookups} {place : ValuePlace} {st : ValueState}

/-- A word is read character by character. -/
theorem run_word {inner hash : Bool} {t rest : Text} (hbrace : st.atBrace = false)
    (hinner : inner = !st.opened.isEmpty) (hword : Text.IsWord inner hash st.quote t)
    (hrest : Text.endsInHash hash st.quote t = true → rest.head? ≠ some '\x7b') :
    st.run lookup place (t ++ rest) =
      { st with
        word := st.word ++ t
        quote := Quote.run .paired st.quote t
        count := st.count + t.length }.run lookup place rest := by
  induction t generalizing st hash with
  | nil => simp [Quote.run]
  | cons c cs ih =>
    obtain ⟨hc, hcs⟩ := hword
    have hact : st.act lookup place c (cs ++ rest).head? = st.keep c := by
      unfold act
      rw [hbrace, if_neg Bool.false_ne_true]
      cases houtside : st.quote.isOutside with
      | false => rfl
      | true =>
        have hkeeps := hc houtside
        simp only [Text.keepsWord, Bool.and_eq_true, Bool.not_eq_true', bne_iff_ne, ne_eq] at hkeeps
        obtain ⟨⟨⟨hblank, hparen⟩, -⟩, hclose⟩ := hkeeps
        -- behind a `#` no brace follows, in the word or after it
        have hhash : ¬(c = '#' ∧ (cs ++ rest).head? = some '\x7b') := by
          rintro ⟨rfl, hnext⟩
          rw [houtside] at hcs
          cases cs with
          | nil => exact hrest (by simp [Text.endsInHash, houtside]) hnext
          | cons d ds =>
            cases hnext
            obtain ⟨hd, -⟩ := hcs
            have hout : (st.quote.step .paired '#').isOutside = true := by
              cases hq : st.quote with
              | outside => rfl
              | inside mark escaped => rw [hq] at houtside; cases houtside
            have hbad := hd hout
            simp [Text.keepsWord] at hbad
        rw [if_neg (by simp), hblank, if_neg Bool.false_ne_true, if_neg hhash, if_neg hparen]
        split
        · rename_i hcloses
          rw [if_pos]
          cases hopened : st.opened.isEmpty with
          | true => rfl
          | false =>
            rw [hinner, hopened] at hclose
            rcases hcloses with rfl | rfl <;> simp at hclose
        · rfl
    have hstep : st.step lookup place c (cs ++ rest).head? =
        { st with
          word := st.word ++ [c]
          quote := st.quote.step .paired c
          count := st.count + 1 } := by
      rw [step, hact]
      rfl
    have hnext := @ih (st.step lookup place c (cs ++ rest).head?)
    rw [hstep] at hnext
    rw [List.cons_append, run, hstep, hnext hbrace hinner hcs hrest]
    simp [Quote.run, Nat.add_assoc, Nat.add_comm 1]

end ValueState

/-! ## Readable values -/

namespace Value

/-- What stands before a part of a value. -/
inductive Before where
  | nothing
  | word
  | compound
  deriving DecidableEq

/-- A part, for the one that follows it. -/
def asBefore : Value → Before
  | literal _ _ | reference _ _ => .word
  | compound _ _ _ => .compound

mutual

/-- A part that can be read behind another one, inside of a compound or outside. -/
def ReadableOne (inner : Bool) (before : Before) : Value → Prop
  | literal text j =>
    text ≠ [] ∧ Text.IsWord inner false .outside text ∧ reference? text = none ∧
      (j = true → before = .compound)
  | reference ref j =>
    Text.IsWord inner false .outside ref.text ∧
      reference? ref.text = some (ref.qualifier, ref.name) ∧ (j = true → before = .compound)
  | compound (.call name) body j =>
    Text.IsWord inner false .outside name ∧ name.Closed .paired ∧
      (j = true → before = .compound) ∧ Readable true .nothing body
  | compound .interpolation body j => (j = true → before ≠ .nothing) ∧ Readable true .nothing body

/-- Parts that can be read one after the other. -/
def Readable (inner : Bool) : Before → List Value → Prop
  | _, [] => True
  | before, v :: vs => ReadableOne inner before v ∧ Readable inner v.asBefore vs

end

mutual

/-- Every string in a part is closed in it. -/
def closedOne : Value → Bool
  | literal text _ => decide (text.Closed .paired)
  | reference _ _ => true
  | compound _ body _ => closedAll body

/-- Every string in a value is closed in its part. -/
def closedAll : List Value → Bool
  | [] => true
  | v :: vs => closedOne v && closedAll vs

end

/-- Every string in a value is closed in its part, except perhaps in a last word. -/
def Closed (vs : List Value) : Prop :=
  closedAll vs.dropLast = true ∧
    ∀ v ∈ vs.getLast?, closedOne v = true ∨ ∃ text j, v = literal text j

instance (vs : List Value) : Decidable (Closed vs) :=
  haveI (v : Value) : Decidable (∃ text j, v = literal text j) :=
    match v with
    | literal text j => isTrue ⟨text, j, rfl⟩
    | reference .. | compound .. => isFalse nofun
  inferInstanceAs (Decidable (_ ∧ _))

/-- A part as text, without the space before it. -/
def bare : Value → Text
  | literal text _ => text
  | reference ref _ => ref.text
  | compound form body _ => form.opening ++ dropSpace (render body) ++ form.closing

theorem renderOne_eq (v : Value) : renderOne v = gap v.joined ++ bare v := by
  cases v <;> simp [renderOne, joined, bare]

/-- A word as a part, where no variable is declared. -/
def ofWord (word : Text) (joined : Bool) : Value :=
  match reference? word with
  | none => .literal word joined
  | some (qualifier, name) => .reference ⟨word, name, qualifier, none⟩ joined

theorem shape_append (vs ws : List Value) : shape (vs ++ ws) = shape vs ++ shape ws :=
  retarget_append ..

theorem isEmpty_shape (vs : List Value) : (shape vs).isEmpty = vs.isEmpty := isEmpty_retarget ..

theorem shape_ofWord_literal {text : Text} (h : reference? text = none) (j : Bool) :
    shape [ofWord text j] = shape [literal text j] := by
  rw [ofWord, h]

theorem shape_ofWord_reference {ref : Reference}
    (h : reference? ref.text = some (ref.qualifier, ref.name)) (j : Bool) :
    shape [ofWord ref.text j] = shape [reference ref j] := by
  rw [ofWord, h]
  rfl

/-- What stands before the part that follows a list of parts. -/
def lastBefore (before : Before) : List Value → Before
  | [] => before
  | v :: vs => lastBefore v.asBefore vs

theorem readable_append {inner : Bool} {before : Before} {vs ws : List Value} :
    Readable inner before (vs ++ ws) ↔
      Readable inner before vs ∧ Readable inner (lastBefore before vs) ws := by
  induction vs generalizing before with
  | nil => simp [Readable, lastBefore]
  | cons v vs ih => rw [List.cons_append, Readable, Readable, ih, and_assoc, lastBefore]

theorem closedAll_append (vs ws : List Value) :
    closedAll (vs ++ ws) = (closedAll vs && closedAll ws) := by
  induction vs with
  | nil => rfl
  | cons v vs ih => rw [List.cons_append, closedAll, closedAll, ih, Bool.and_assoc]

/-- A part that is joined to the one before it stands behind a compound, or is an
    interpolation. -/
theorem ReadableOne.joined {inner : Bool} {before : Before} {v : Value}
    (h : ReadableOne inner before v) (hj : v.joined = true) :
    before = .compound ∨ before ≠ .nothing ∧ ∃ body j, v = .compound .interpolation body j := by
  match v, h with
  | literal _ _, ⟨_, _, _, h⟩ => exact .inl (h hj)
  | reference _ _, ⟨_, _, h⟩ => exact .inl (h hj)
  | compound (.call _) _ _, ⟨_, _, h, _⟩ => exact .inl (h hj)
  | compound .interpolation body j, ⟨h, _⟩ => exact .inr ⟨h hj, body, j, rfl⟩

/-- The parts of a value are written with at least one character each. -/
theorem ReadableOne.bare_ne_nil {inner : Bool} {before : Before} {v : Value}
    (h : ReadableOne inner before v) : bare v ≠ [] := by
  match v, h with
  | literal _ _, ⟨hne, _⟩ => exact hne
  | reference ref _, ⟨_, hsome, _⟩ =>
    intro hnil
    rw [show ref.text = [] from hnil] at hsome
    cases hsome
  | compound form _ _, _ =>
    cases form <;> simp [bare, Form.opening]

theorem ReadableOne.body {inner : Bool} {before : Before} {form : Form} {body : List Value}
    {j : Bool} (h : ReadableOne inner before (compound form body j)) :
    Readable true .nothing body := by
  match form, h with
  | .call _, ⟨_, _, _, h⟩ => exact h
  | .interpolation, ⟨_, h⟩ => exact h

end Value

/-! ## References hold no strings -/

theorem isQuoteMark_of_isNameChar {c : Char} (h : isNameChar c = true) : isQuoteMark c = false := by
  have hplain := Line.isPlain_of_isNameChar h
  simp only [Line.isPlain, Bool.and_eq_true, Bool.not_eq_true'] at hplain
  exact hplain.1.1

theorem isNameChar_of_isAlpha {c : Char} (h : c.isAlpha = true) : isNameChar c = true := by
  have hascii : c.toNat < 128 := by
    simp only [Char.isAlpha, Char.isUpper, Char.isLower, Bool.or_eq_true, Bool.and_eq_true,
      decide_eq_true_eq, UInt32.le_iff_toNat_le] at h
    have htoNat : c.toNat = c.val.toNat := rfl
    have hupper : 'Z'.val.toNat = 90 := rfl
    have hlower : 'z'.val.toNat = 122 := rfl
    omega
  rw [isNameChar, isWord, if_pos hascii, Char.isAlphanum, h]
  rfl

/-- A name and the text behind it. -/
theorem identifier?_eq_some {t name rest : Text} (h : identifier? t = some (name, rest)) :
    t = name ++ rest ∧ ∀ c ∈ name, isNameChar c = true := by
  cases t with
  | nil => cases h
  | cons c cs =>
    rw [identifier?] at h
    split at h
    · rename_i hletter
      cases h
      refine ⟨by rw [List.cons_append, List.takeWhile_append_dropWhile], fun d hd => ?_⟩
      rcases List.mem_cons.1 hd with rfl | hd
      · rcases Bool.or_eq_true_iff.1 hletter with halpha | hunderscore
        · exact isNameChar_of_isAlpha halpha
        · rw [beq_iff_eq.1 hunderscore]
          decide
      · exact List.mem_takeWhile_imp hd
    · cases h

/-- The word of a variable: its name, perhaps with a comma behind it. -/
theorem variableWord?_eq_some {t name : Text} (h : variableWord? t = some name) :
    (∃ rest, name = '$' :: rest ∧ ∀ c ∈ rest, isNameChar c = true) ∧
      (t = name ∨ t = name ++ [',']) := by
  unfold variableWord? at h
  split at h
  · split at h
    · rename_i hid
      obtain ⟨rfl, hname⟩ := identifier?_eq_some hid
      cases h
      exact ⟨⟨_, rfl, hname⟩, .inl (by rw [List.append_nil])⟩
    · rename_i hid
      obtain ⟨rfl, hname⟩ := identifier?_eq_some hid
      cases h
      exact ⟨⟨_, rfl, hname⟩, .inr rfl⟩
    · cases h
  · cases h

theorem isQuoteMark_of_variableWord {t name : Text} (h : variableWord? t = some name) :
    ∀ c ∈ t, isQuoteMark c = false := by
  obtain ⟨⟨rest, rfl, hrest⟩, ht⟩ := variableWord?_eq_some h
  have hname : ∀ c ∈ '$' :: rest, isQuoteMark c = false :=
    List.forall_mem_cons.2 ⟨by decide, fun c hc => isQuoteMark_of_isNameChar (hrest c hc)⟩
  rcases ht with rfl | rfl
  · exact hname
  · exact List.forall_mem_append.2 ⟨hname, List.forall_mem_singleton.2 (by decide)⟩

/-- No string starts in a reference. -/
theorem closed_of_reference {word name : Text} {qualifier : Option Text}
    (h : reference? word = some (qualifier, name)) : word.Closed .paired := by
  apply Text.closed_of_plain
  unfold reference? at h
  split at h
  · exact isQuoteMark_of_variableWord ‹_›
  · split at h
    · rename_i module rest hid
      obtain ⟨rfl, hmodule⟩ := identifier?_eq_some hid
      obtain ⟨name', hname, -⟩ := Option.map_eq_some_iff.1 h
      have hrest := isQuoteMark_of_variableWord hname
      simp only [List.mem_append, List.mem_cons]
      rintro c (hc | rfl | hc)
      · exact isQuoteMark_of_isNameChar (hmodule c hc)
      · decide
      · exact hrest c hc
    · cases h

/-! ## Reading what was written -/

namespace ValueState

variable (lookup : Lookups) (place : ValuePlace)

/-- Everything that stays as it is while parts are added to the innermost compound. -/
def around (st : ValueState) : Option (Form × Bool × List OpenCompound × List Value) :=
  match st.opened with
  | [] => none
  | o :: os => some (o.form, o.joined, os, st.body)

@[simp] theorem around_push (st : ValueState) (v : Value) : (st.push v).around = st.around := by
  obtain ⟨body, opened, word, spaced, quote, atBrace, count, ds⟩ := st
  cases opened <;> rfl

@[simp] theorem innermost_push (st : ValueState) (v : Value) :
    (st.push v).innermost = st.innermost ++ [v] := by
  obtain ⟨body, opened, word, spaced, quote, atBrace, count, ds⟩ := st
  cases opened <;> rfl

@[simp] theorem spaced_push (st : ValueState) (v : Value) : (st.push v).spaced = false := by
  obtain ⟨body, opened, word, spaced, quote, atBrace, count, ds⟩ := st
  cases opened <;> rfl

theorem isEmpty_opened_eq {st st' : ValueState} (h : st'.around = st.around) :
    st'.opened.isEmpty = st.opened.isEmpty := by
  obtain ⟨body, opened, word, spaced, quote, atBrace, count, ds⟩ := st
  obtain ⟨body', opened', word', spaced', quote', atBrace', count', ds'⟩ := st'
  cases opened <;> cases opened' <;> first | rfl | cases h

theorem isSome_around {st : ValueState} {frame : Form × Bool × List OpenCompound × List Value}
    (h : st.around = some frame) : st.opened.isEmpty = false := by
  obtain ⟨body, opened, word, spaced, quote, atBrace, count, ds⟩ := st
  cases opened with
  | nil => cases h
  | cons => rfl

/-- Where no word was begun, nothing is ended. -/
theorem flush_nil {st : ValueState} (h : st.word = []) : st.flush lookup place = st := by
  rw [flush, h, List.isEmpty_nil, if_pos rfl]

/-- A word that was begun becomes a part. -/
theorem flush_word {st : ValueState} (h : st.word ≠ []) :
    (st.flush lookup place).around = st.around ∧ (st.flush lookup place).spaced = false ∧
      Value.shape (st.flush lookup place).innermost =
        Value.shape (st.innermost ++ [Value.ofWord st.word st.joins]) := by
  rw [flush, if_neg (by simpa using h)]
  unfold Value.ofWord
  cases reference? st.word with
  | none => exact ⟨around_push .., spaced_push .., congrArg _ (innermost_push ..)⟩
  | some found =>
    refine ⟨around_push .., spaced_push .., ?_⟩
    dsimp only
    rw [innermost_push, Value.shape, Value.retarget_append, Value.shape, Value.retarget_append]
    rfl

@[simp] theorem around_flush (st : ValueState) : (st.flush lookup place).around = st.around := by
  by_cases h : st.word = []
  · rw [flush_nil lookup place h]
  · exact (flush_word lookup place h).1

variable {lookup place}

/-- A state from which the next part is read. -/
structure Fresh (joined : Bool) (st : ValueState) : Prop where
  quote : st.quote = .outside
  atBrace : st.atBrace = false
  word : st.word = []
  joins : st.joins = joined

/-- A state behind a part, or at the start of a body. -/
structure Behind (before : Value.Before) (st : ValueState) : Prop where
  quote : st.quote = .outside
  atBrace : st.atBrace = false
  nothing : before = .nothing → st.word = [] ∧ st.innermost = []
  word : before = .word → st.word ≠ []
  compound : before = .compound → st.word = [] ∧ st.spaced = false ∧ st.innermost ≠ []

/-- Reading the text takes a state behind parts with the same shape as the given ones. -/
def Yields (lookup : Lookups) (place : ValuePlace) (st : ValueState) (t rest : Text)
    (before : Value.Before) (vs : List Value) : Prop :=
  ∃ st' : ValueState, st.run lookup place (t ++ rest) = st'.run lookup place rest ∧
    st'.Behind before ∧ st'.around = st.around ∧
    Value.shape (st'.flush lookup place).innermost =
      Value.shape ((st.flush lookup place).innermost ++ vs)

variable {st : ValueState} {before : Value.Before} {v : Value} {t rest : Text}

theorem step_hash (hquote : st.quote = .outside) (hbrace : st.atBrace = false) :
    st.step lookup place '#' (some '\x7b') =
      { (st.flush lookup place).enter .interpolation with
        atBrace := true
        count := (st.flush lookup place).count + 1 } := by
  unfold step act
  rw [hbrace, hquote]
  rfl

variable (lookup place) in
/-- A state behind a part joins what comes right behind it. -/
theorem Behind.joins_flush (hst : st.Behind before) (hbefore : before ≠ .nothing) :
    (st.flush lookup place).joins = true := by
  have hjoins : (st.flush lookup place).spaced = false →
      (st.flush lookup place).innermost.isEmpty = false → (st.flush lookup place).joins = true := by
    intro hspaced hempty
    rw [joins, hspaced, hempty]
    rfl
  cases before with
  | nothing => exact absurd rfl hbefore
  | word =>
    obtain ⟨-, hspaced, hparts⟩ := flush_word lookup place (hst.word rfl)
    refine hjoins hspaced ?_
    rw [← Value.isEmpty_shape, hparts, Value.isEmpty_shape]
    simp
  | compound =>
    obtain ⟨hword, hspaced, hsome⟩ := hst.compound rfl
    refine hjoins ?_ ?_ <;> rw [flush_nil _ _ hword]
    · exact hspaced
    · simpa using hsome

theorem step_blank (hquote : st.quote = .outside) (hbrace : st.atBrace = false) (next : Option Char) :
    st.step lookup place ' ' next =
      { st.flush lookup place with
        spaced := true
        count := (st.flush lookup place).count + 1 } := by
  unfold step act
  rw [hbrace, hquote]
  rfl

variable (lookup place) in
/-- The space before a part, if any, leads to a state from which the part is read. -/
theorem Behind.run_gap {inner : Bool} (hst : st.Behind before)
    (hv : Value.ReadableOne inner before v) (rest : Text) :
    ∃ st' : ValueState, st.run lookup place (Value.renderOne v ++ rest) =
        st'.run lookup place (Value.bare v ++ rest) ∧
      st'.Fresh v.joined ∧ st'.around = st.around ∧
      st'.innermost = (st.flush lookup place).innermost := by
  obtain ⟨hquote, hbrace, hword⟩ := flush_frame lookup place st
  rw [Value.renderOne_eq]
  cases hj : v.joined with
  | false =>
    refine ⟨st.step lookup place ' ' (Value.bare v ++ rest).head?, rfl, ?_⟩
    rw [step_blank hst.quote hst.atBrace]
    exact ⟨⟨hquote.trans hst.quote, hbrace.trans hst.atBrace, hword, rfl⟩,
      around_flush .., rfl⟩
  | true =>
    rcases hv.joined hj with rfl | ⟨hbefore, body, j, rfl⟩
    · have hnone := (hst.compound rfl).1
      have hjoins := hst.joins_flush lookup place (by decide)
      rw [flush_nil _ _ hnone] at hjoins ⊢
      exact ⟨st, rfl, ⟨hst.quote, hst.atBrace, hnone, hjoins⟩, rfl, rfl⟩
    · -- an interpolation ends the word before it
      refine ⟨st.flush lookup place, ?_, ⟨hquote.trans hst.quote, hbrace.trans hst.atBrace, hword,
        hst.joins_flush lookup place hbefore⟩, around_flush .., rfl⟩
      have hstep : st.step lookup place '#' (some '\x7b') =
          (st.flush lookup place).step lookup place '#' (some '\x7b') := by
        rw [step_hash hst.quote hst.atBrace,
          step_hash (hquote.trans hst.quote) (hbrace.trans hst.atBrace), flush_nil _ _ hword]
      simp only [Value.gap, if_true, List.nil_append, Value.bare, Form.opening, List.cons_append,
        run, List.head?_cons, hstep]

variable (lookup place) in
/-- The characters of a word are kept. -/
theorem Fresh.run_keep {joined inner : Bool} (hst : st.Fresh joined)
    (hinner : inner = !st.opened.isEmpty) (hword : Text.IsWord inner false .outside t)
    (hrest : rest.head? ≠ some '\x7b') :
    st.run lookup place (t ++ rest) =
      { st with
        word := t
        quote := Quote.run .paired .outside t
        count := st.count + t.length }.run lookup place rest := by
  rw [← hst.quote] at hword
  rw [run_word hst.atBrace hinner hword fun _ => hrest, hst.word, hst.quote, List.nil_append]

/-- A word outside of strings becomes a part. -/
theorem Fresh.yields_word {joined inner : Bool} (hst : st.Fresh joined)
    (hinner : inner = !st.opened.isEmpty) (hne : t ≠ []) (hword : Text.IsWord inner false .outside t)
    (hclosed : t.Closed .paired) (hrest : rest.head? ≠ some '\x7b') :
    Yields lookup place st t rest .word [Value.ofWord t joined] := by
  refine ⟨_, hst.run_keep lookup place hinner hword hrest,
    ⟨hclosed, hst.atBrace, nofun, fun _ => hne, nofun⟩, rfl, ?_⟩
  rw [(flush_word lookup place (by exact hne)).2.2, flush_nil _ _ hst.word, ← hst.joins]
  rfl

variable (lookup place) in
/-- The opening of a compound leads to the start of its body. -/
theorem Fresh.run_opening {joined inner : Bool} {form : Form} {body : List Value}
    (hst : st.Fresh joined) (hinner : inner = !st.opened.isEmpty)
    (hv : Value.ReadableOne inner before (.compound form body joined)) (rest : Text) :
    ∃ st' : ValueState, st.run lookup place (form.opening ++ rest) = st'.run lookup place rest ∧
      st'.Behind .nothing ∧ st'.around = some (form, joined, st.opened, st.body) := by
  cases form with
  | call name =>
    obtain ⟨hname, hclosed, -⟩ := hv
    have hkeep := hst.run_keep lookup place hinner hname
      (show ('(' :: rest).head? ≠ some '\x7b' by simp)
    refine ⟨_, by rw [Form.opening, List.append_assoc, List.singleton_append, hkeep]; rfl, ?_⟩
    have hstep : ∀ next, ValueState.step lookup place { st with
        word := name
        quote := Quote.run .paired .outside name
        count := st.count + name.length } '(' next =
        { { st with word := [] }.enter (.call name) with
          quote := Quote.run .paired .outside name
          count := st.count + name.length + 1 } := by
      intro next
      unfold step act
      rw [show Quote.run .paired .outside name = .outside from hclosed, hst.atBrace]
      rfl
    rw [hstep]
    exact ⟨⟨hclosed, hst.atBrace, fun _ => ⟨rfl, rfl⟩, nofun, nofun⟩, by rw [← hst.joins]; rfl⟩
  | interpolation =>
    refine ⟨(st.step lookup place '#' (some '\x7b')).step lookup place '\x7b' rest.head?, rfl, ?_⟩
    rw [step_hash hst.quote hst.atBrace, flush_nil _ _ hst.word]
    exact ⟨⟨hst.quote, rfl, fun _ => ⟨hst.word, rfl⟩, nofun, nofun⟩, by rw [← hst.joins]; rfl⟩

variable (lookup place) in
/-- The closing of a compound makes it a part of the body around it. -/
theorem Behind.run_closing {st st' : ValueState} {form : Form} {joined : Bool}
    (hst : st'.Behind before) (haround : st'.around = some (form, joined, st.opened, st.body))
    (rest : Text) :
    ∃ st'' : ValueState, st'.run lookup place (form.closing ++ rest) = st''.run lookup place rest ∧
      st''.Behind .compound ∧ st''.around = st.around ∧
      st''.innermost =
        st.innermost ++ [.compound form (st'.flush lookup place).innermost joined] := by
  obtain ⟨hquote, hbrace, hword⟩ := flush_frame lookup place st'
  have haround' := (around_flush lookup place st').trans haround
  -- either character closes the innermost compound
  have hstep : ∀ next, ∀ c ∈ form.closing, st'.step lookup place c next =
      { (st'.flush lookup place).close with count := (st'.flush lookup place).close.count + 1 } := by
    intro next c hc
    unfold step act
    rw [hst.atBrace, hst.quote, isSome_around haround]
    cases form <;> cases List.mem_singleton.1 hc <;> rfl
  have hclose : (st'.flush lookup place).close =
      { st'.flush lookup place with opened := st.opened, body := st.body }.push
        (.compound form (st'.flush lookup place).innermost joined) := by
    generalize st'.flush lookup place = flushed at haround'
    obtain ⟨body, opened, word, spaced, quote, atBrace, count, ds⟩ := flushed
    cases opened with
    | nil => cases haround'
    | cons o os =>
      cases haround'
      rfl
  obtain ⟨c, hc⟩ : ∃ c, form.closing = [c] := by cases form <;> exact ⟨_, rfl⟩
  refine ⟨st'.step lookup place c rest.head?, by rw [hc]; rfl, ?_⟩
  rw [hstep _ c (by rw [hc]; exact List.mem_singleton_self c), hclose]
  obtain ⟨hpushquote, hpushbrace, hpushword⟩ := push_frame
    { st'.flush lookup place with opened := st.opened, body := st.body }
    (.compound form (st'.flush lookup place).innermost joined)
  have hinner := innermost_push
    { st'.flush lookup place with opened := st.opened, body := st.body }
    (.compound form (st'.flush lookup place).innermost joined)
  refine ⟨⟨hpushquote.trans (hquote.trans hst.quote), hpushbrace.trans (hbrace.trans hst.atBrace),
    nofun, nofun, fun _ => ⟨hpushword.trans hword, spaced_push .., ?_⟩⟩,
    (around_push ..).trans rfl, hinner⟩
  exact fun hnone => absurd (hinner.symm.trans hnone) (by simp)

theorem Yields.trans {st₁ : ValueState} {t' : Text} {before' : Value.Before} {vs ws : List Value}
    (hrun : st.run lookup place (t ++ (t' ++ rest)) = st₁.run lookup place (t' ++ rest))
    (haround : st₁.around = st.around)
    (hparts : Value.shape (st₁.flush lookup place).innermost =
      Value.shape ((st.flush lookup place).innermost ++ vs))
    (h : Yields lookup place st₁ t' rest before' ws) :
    Yields lookup place st (t ++ t') rest before' (vs ++ ws) := by
  obtain ⟨st', hrun', hbehind, haround', hparts'⟩ := h
  refine ⟨st', ?_, hbehind, haround'.trans haround, ?_⟩
  · rw [List.append_assoc, hrun, hrun']
  · rw [hparts', Value.shape_append, hparts, ← Value.shape_append, List.append_assoc]

/-- A state behind no parts yields none. -/
theorem Behind.yields_nil (hst : st.Behind before) :
    Yields lookup place st [] rest before [] :=
  ⟨st, rfl, hst, rfl, by rw [List.append_nil]⟩

/-- No brace comes behind a word, unless one comes behind all the parts. -/
theorem head?_render_ne {inner : Bool} {vs : List Value} (h : Value.Readable inner .word vs)
    (hrest : Value.lastBefore .word vs = .word → rest.head? ≠ some '\x7b') :
    (Value.render vs ++ rest).head? ≠ some '\x7b' := by
  cases vs with
  | nil => exact hrest rfl
  | cons v vs =>
    rw [Value.render, Value.renderOne_eq]
    cases hj : v.joined with
    | false => simp [Value.gap]
    | true =>
      obtain hcompound | ⟨-, body, j, rfl⟩ := h.1.joined hj
      · cases hcompound
      · simp [Value.gap, Value.bare, Form.opening]

theorem dropSpace_render {inner : Bool} {vs : List Value}
    (h : Value.Readable inner .nothing (v :: vs)) :
    v.joined = false ∧
      Value.dropSpace (Value.render (v :: vs)) = Value.bare v ++ Value.render vs := by
  have hj : v.joined = false := by
    refine Bool.eq_false_iff.2 fun hj => ?_
    obtain hcompound | ⟨hnone, -⟩ := h.1.joined hj
    · cases hcompound
    · exact hnone rfl
  refine ⟨hj, ?_⟩
  rw [Value.render, Value.renderOne_eq, hj]
  rfl

mutual

/-- A part is read back. -/
theorem Fresh.yields_bare {inner : Bool} {before : Value.Before} : ∀ (v : Value) {st : ValueState}
    {rest : Text}, st.Fresh v.joined → inner = (!st.opened.isEmpty) →
    Value.ReadableOne inner before v → Value.closedOne v = true →
    (v.asBefore = .word → rest.head? ≠ some '\x7b') →
    Yields lookup place st (Value.bare v) rest v.asBefore [v]
  | .literal text j, st, rest, hst, hinner, ⟨hne, hword, hnone, _⟩, hclosed, hrest => by
    obtain ⟨st', hrun, hbehind, haround, hparts⟩ :=
      hst.yields_word hinner hne hword (of_decide_eq_true hclosed) (hrest rfl)
    refine ⟨st', hrun, hbehind, haround, hparts.trans ?_⟩
    rw [Value.shape_append, Value.shape_ofWord_literal hnone, ← Value.shape_append]
    rfl
  | .reference ref j, st, rest, hst, hinner, ⟨hword, hsome, _⟩, _, hrest => by
    have hne : ref.text ≠ [] := by
      intro hnil
      rw [hnil] at hsome
      cases hsome
    obtain ⟨st', hrun, hbehind, haround, hparts⟩ :=
      hst.yields_word hinner hne hword (closed_of_reference hsome) (hrest rfl)
    refine ⟨st', hrun, hbehind, haround, hparts.trans ?_⟩
    rw [Value.shape_append, Value.shape_ofWord_reference hsome, ← Value.shape_append]
    rfl
  | .compound form body j, st, rest, hst, hinner, hv, hclosed, _ => by
    obtain ⟨st₁, hopening, hbehind₁, haround₁⟩ := hst.run_opening lookup place hinner hv
      (Value.dropSpace (Value.render body) ++ (form.closing ++ rest))
    have hbrace : (form.closing ++ rest).head? ≠ some '\x7b' := by
      cases form <;> simp [Form.closing]
    obtain ⟨st₂, hbody, hbehind₂, haround₂, hparts₂⟩ :=
      Behind.yields_body body hbehind₁ (isSome_around haround₁) hv.body hclosed hbrace
    obtain ⟨st₃, hclosing, hbehind₃, haround₃, hparts₃⟩ :=
      hbehind₂.run_closing lookup place (haround₂.trans haround₁) rest
    refine ⟨st₃, ?_, hbehind₃, haround₃, ?_⟩
    · rw [Value.bare, List.append_assoc, List.append_assoc, hopening, hbody, hclosing]
    · rw [flush_nil _ _ hst.word, flush_nil _ _ (hbehind₃.compound rfl).1, hparts₃, Value.shape_append,
        Value.shape_append]
      simp only [Value.shape, Value.retarget, Value.retargetOfOne] at hparts₂ ⊢
      rw [hparts₂, flush_nil _ _ (hbehind₁.nothing rfl).1, (hbehind₁.nothing rfl).2, List.nil_append]
      rfl

/-- The parts of a compound are read back. -/
theorem Behind.yields_body : ∀ (vs : List Value) {st : ValueState} {rest : Text},
    st.Behind .nothing → st.opened.isEmpty = false → Value.Readable true .nothing vs →
    Value.closedAll vs = true → rest.head? ≠ some '\x7b' →
    Yields lookup place st (Value.dropSpace (Value.render vs)) rest (Value.lastBefore .nothing vs) vs
  | [], st, rest, hst, _, _, _, _ => hst.yields_nil
  | v :: vs, st, rest, hst, hopen, hreadable, hclosed, hrest => by
    obtain ⟨hj, htext⟩ := dropSpace_render hreadable
    obtain ⟨hv, hvs⟩ := hreadable
    rw [Value.closedAll, Bool.and_eq_true] at hclosed
    have hfresh : st.Fresh v.joined := by
      refine ⟨hst.quote, hst.atBrace, (hst.nothing rfl).1, ?_⟩
      rw [hj, joins, (hst.nothing rfl).2]
      exact Bool.and_false _
    obtain ⟨st₁, hrun, hbehind, haround, hparts⟩ :=
      Fresh.yields_bare v hfresh (by rw [hopen]; rfl) hv hclosed.1
        fun hword => head?_render_ne (hword ▸ hvs) fun _ => hrest
    rw [htext]
    refine Yields.trans hrun haround hparts (Behind.yields_parts vs hbehind ?_ hvs hclosed.2
      fun _ => hrest)
    rw [isEmpty_opened_eq haround, hopen]
    rfl

/-- Parts are read back. -/
theorem Behind.yields_parts {inner : Bool} : ∀ (vs : List Value) {before : Value.Before}
    {st : ValueState} {rest : Text},
    st.Behind before → inner = (!st.opened.isEmpty) → Value.Readable inner before vs →
    Value.closedAll vs = true →
    (Value.lastBefore before vs = .word → rest.head? ≠ some '\x7b') →
    Yields lookup place st (Value.render vs) rest (Value.lastBefore before vs) vs
  | [], before, st, rest, hst, _, _, _, _ => hst.yields_nil
  | v :: vs, before, st, rest, hst, hinner, ⟨hv, hvs⟩, hclosed, hrest => by
    rw [Value.closedAll, Bool.and_eq_true] at hclosed
    obtain ⟨st₀, hgap, hfresh, haround₀, hparts₀⟩ :=
      hst.run_gap lookup place hv (Value.render vs ++ rest)
    obtain ⟨st₁, hrun, hbehind, haround₁, hparts₁⟩ :=
      Fresh.yields_bare v hfresh (by rw [isEmpty_opened_eq haround₀, hinner]) hv hclosed.1
        fun hword => head?_render_ne (hword ▸ hvs) fun hlast => hrest (by rw [← hlast, ← hword]; rfl)
    rw [flush_nil _ _ hfresh.word, hparts₀] at hparts₁
    refine Yields.trans (hgap.trans hrun) (haround₁.trans haround₀) hparts₁
      (Behind.yields_parts vs hbehind ?_ hvs hclosed.2 hrest)
    rw [isEmpty_opened_eq haround₁, isEmpty_opened_eq haround₀, hinner]

end

theorem behind_start : Behind .nothing {} where
  quote := rfl
  atBrace := rfl
  nothing _ := ⟨rfl, rfl⟩
  word := nofun
  compound := nofun

/-- Where nothing is open, the end of the text only ends the last word. -/
theorem body_finish (lookup : Lookups) (place : ValuePlace) {st : ValueState} (h : st.around = none) :
    (st.finish lookup place).body = (st.flush lookup place).innermost := by
  rw [← around_flush lookup place] at h
  unfold finish innermost
  generalize st.flush lookup place = flushed at h
  obtain ⟨body, opened, word, spaced, quote, atBrace, count, ds⟩ := flushed
  cases opened with
  | nil => rfl
  | cons => cases h

variable (lookup place) in
/-- The last part is read back also when a string in it is left open. -/
theorem Fresh.run_last {inner : Bool} (hst : st.Fresh v.joined) (hinner : inner = !st.opened.isEmpty)
    (hv : Value.ReadableOne inner before v)
    (hclosed : Value.closedOne v = true ∨ ∃ text j, v = .literal text j) :
    (st.run lookup place (Value.bare v)).around = st.around ∧
      Value.shape ((st.run lookup place (Value.bare v)).flush lookup place).innermost =
        Value.shape (st.innermost ++ [v]) := by
  rcases hclosed with hclosed | ⟨text, j, rfl⟩
  · obtain ⟨st', hrun, -, haround, hparts⟩ :=
      Fresh.yields_bare v hst hinner hv hclosed fun _ => show [].head? ≠ some '\x7b' by simp
    rw [List.append_nil] at hrun
    rw [flush_nil _ _ hst.word] at hparts
    rw [hrun]
    exact ⟨haround, hparts⟩
  · obtain ⟨hne, hword, hnone, -⟩ := hv
    have hkeep := hst.run_keep lookup place hinner hword (show [].head? ≠ some '\x7b' by simp)
    rw [List.append_nil] at hkeep
    rw [Value.bare, hkeep]
    refine ⟨rfl, ?_⟩
    rw [run, (flush_word lookup place (by exact hne)).2.2, Value.shape_append,
      Value.shape_ofWord_literal hnone, ← Value.shape_append]
    exact congrArg (fun j => Value.shape (st.innermost ++ [.literal text j])) hst.joins

end ValueState

/-- A readable value without open strings is read back from its text. -/
theorem valueParts_render {vs : List Value} (h : Value.Readable false .nothing vs)
    (hclosed : Value.Closed vs) : valueParts (Value.render vs) = Value.shape vs := by
  rcases vs.eq_nil_or_concat' with rfl | ⟨front, last, rfl⟩
  · rfl
  obtain ⟨hfront, hlast⟩ := Value.readable_append.1 h
  rw [Value.Closed, List.dropLast_concat, List.getLast?_concat] at hclosed
  have hbrace : Value.lastBefore .nothing front = .word →
      (Value.render [last] ++ []).head? ≠ some '\x7b' :=
    fun hword => ValueState.head?_render_ne (hword ▸ hlast) fun _ => nofun
  obtain ⟨st, hrun, hbehind, haround, hparts⟩ :=
    ValueState.behind_start.yields_parts front rfl hfront hclosed.1 hbrace
  obtain ⟨st', hgap, hfresh, haround', hinner⟩ :=
    hbehind.run_gap (fun _ _ _ _ => none) ⟨0, 0, 0⟩ hlast.1 []
  have hopened := ValueState.isEmpty_opened_eq (haround'.trans haround)
  obtain ⟨hnone, hlastParts⟩ :=
    hfresh.run_last (fun _ _ _ _ => none) ⟨0, 0, 0⟩ (by rw [hopened]; rfl) hlast.1
      (hclosed.2 last rfl)
  have hread : ValueState.run (fun _ _ _ _ => none) ⟨0, 0, 0⟩ {} (Value.render (front ++ [last])) =
      st'.run (fun _ _ _ _ => none) ⟨0, 0, 0⟩ (Value.bare last) := by
    rw [Value.render_append]
    simp only [Value.render, List.append_nil] at hrun hgap ⊢
    rw [hrun, hgap]
  rw [valueParts, readValue, hread]
  dsimp only
  rw [ValueState.body_finish _ _ (hnone.trans (haround'.trans haround)), hlastParts, hinner,
    Value.shape_append, hparts, ← Value.shape_append]
  rfl

/-! ## What is read is readable -/

namespace Value

/-- A compound is readable when it can be opened and its parts are readable. -/
theorem readableOne_compound {inner : Bool} {before : Before} {form : Form} {body : List Value}
    {j : Bool} : ReadableOne inner before (compound form body j) ↔
      ReadableOne inner before (compound form [] j) ∧ Readable true .nothing body := by
  cases form <;> simp [ReadableOne, Readable, and_assoc]

theorem lastBefore_concat (before : Before) (vs : List Value) (v : Value) :
    lastBefore before (vs ++ [v]) = v.asBefore := by
  induction vs generalizing before with
  | nil => rfl
  | cons w vs ih => exact ih _

theorem lastBefore_ne_nothing {vs : List Value} (h : vs ≠ []) (before : Before) :
    lastBefore before vs ≠ .nothing := by
  rcases vs.eq_nil_or_concat' with rfl | ⟨front, last, rfl⟩
  · exact absurd rfl h
  · rw [lastBefore_concat]
    cases last <;> exact Before.noConfusion

end Value

namespace ValueState

variable {lookup : Lookups} {place : ValuePlace} {st : ValueState} {next : Option Char}

/-- The parts read so far are readable, and so is what is still open. -/
def Framed : List OpenCompound → List Value → Prop
  | [], body => Value.Readable false .nothing body
  | o :: os, body =>
    Value.Readable true .nothing o.body ∧
      Value.ReadableOne (!os.isEmpty) (Value.lastBefore .nothing (innermost { opened := os, body }))
        (.compound o.form [] o.joined) ∧
      Framed os body

theorem framed_push (h : Framed st.opened st.body) {v : Value}
    (hv : Value.ReadableOne (!st.opened.isEmpty) (Value.lastBefore .nothing st.innermost) v) :
    Framed (st.push v).opened (st.push v).body := by
  obtain ⟨body, opened, word, spaced, quote, atBrace, count, ds⟩ := st
  cases opened with
  | nil => exact Value.readable_append.2 ⟨h, hv, trivial⟩
  | cons o os => exact ⟨Value.readable_append.2 ⟨h.1, hv, trivial⟩, h.2⟩

theorem framed_close (h : Framed st.opened st.body) : Framed st.close.opened st.close.body := by
  obtain ⟨body, opened, word, spaced, quote, atBrace, count, ds⟩ := st
  cases opened with
  | nil => exact h
  | cons o os => exact framed_push h.2.2 (Value.readableOne_compound.2 ⟨h.2.1, h.1⟩)

/-- What holds before a character is read. -/
structure Tidy (next : Option Char) (st : ValueState) : Prop where
  framed : Framed st.opened st.body
  word : Text.IsWord (!st.opened.isEmpty) false .outside st.word
  quote : st.quote = Quote.run .paired .outside st.word
  /-- Only behind a compound can a word be joined. -/
  joins : st.joins = true → Value.lastBefore .nothing st.innermost = .compound
  hash : Text.endsInHash false .outside st.word = true → next ≠ some '\x7b'
  brace : st.atBrace = true → st.word = []

theorem Tidy.flush (h : st.Tidy next) (lookup : Lookups) (place : ValuePlace) :
    Framed (st.flush lookup place).opened (st.flush lookup place).body := by
  unfold ValueState.flush
  split
  · exact h.framed
  · rename_i hne
    dsimp only
    split
    · apply framed_push
      · exact h.framed
      · exact ⟨by simpa using hne, h.word, ‹_›, h.joins⟩
    · apply framed_push
      · exact h.framed
      · exact ⟨h.word, ‹_›, h.joins⟩

theorem Tidy.keep {c : Char} (h : st.Tidy (some c))
    (hkeeps : st.quote.isOutside = true → Text.keepsWord (!st.opened.isEmpty)
      (Text.endsInHash false .outside st.word) c = true)
    (hnext : st.quote.isOutside = true → c = '#' → next ≠ some '\x7b') (hbrace : st.atBrace = false) :
    (st.keep c).Tidy next where
  framed := h.framed
  word := Text.isWord_snoc.2 ⟨h.word, by rw [← h.quote]; exact hkeeps⟩
  quote := by
    rw [ValueState.keep, Quote.run_append, ← h.quote]
    rfl
  joins := h.joins
  hash hhash := by
    rw [ValueState.keep, Text.endsInHash_snoc, ← h.quote, Bool.and_eq_true, beq_iff_eq] at hhash
    exact hnext hhash.1 hhash.2
  brace hb := absurd (hbrace.symm.trans hb) (by decide)

/-- A state between two words. -/
theorem tidy_of_framed (h : Framed st.opened st.body) (hword : st.word = [])
    (hquote : st.quote = .outside)
    (hjoins : st.joins = true → Value.lastBefore .nothing st.innermost = .compound)
    (next : Option Char) : st.Tidy next where
  framed := h
  word := by
    rw [hword]
    trivial
  quote := by rw [hquote, hword]; rfl
  joins := hjoins
  hash hhash := by
    rw [hword] at hhash
    cases hhash
  brace _ := hword

theorem word_close (st : ValueState) : st.close.word = st.word := by
  unfold close
  split
  · rfl
  · exact (push_frame ..).2.2

/-- A closed compound is the last part. -/
theorem lastBefore_close {st : ValueState} (h : ¬st.opened.isEmpty = true) :
    Value.lastBefore .nothing st.close.innermost = .compound := by
  cases hopened : st.opened with
  | nil => exact absurd (by rw [hopened]; rfl) h
  | cons o os =>
    simp only [close, hopened, innermost_push, Value.lastBefore_concat]
    rfl

/-- Reading a character keeps the parts readable. -/
theorem Tidy.act {c : Char} (h : st.Tidy (some c)) (lookup : Lookups) (place : ValuePlace)
    (next : Option Char) : (st.act lookup place c next).Tidy next := by
  obtain ⟨hquote, -, hword⟩ := flush_frame lookup place st
  have hflush := h.flush lookup place
  unfold ValueState.act
  by_cases hbrace : st.atBrace = true
  · rw [if_pos hbrace]
    have hnone := h.brace hbrace
    refine tidy_of_framed ?_ ?_ ?_ ?_ next
    · exact h.framed
    · exact hnone
    · exact h.quote.trans (by rw [hnone]; rfl)
    · exact h.joins
  rw [if_neg hbrace]
  rw [Bool.not_eq_true] at hbrace
  cases hq : st.quote with
  | inside mark escaped =>
    have hinside : ¬st.quote.isOutside = true := by
      rw [hq]
      exact Bool.false_ne_true
    exact h.keep (fun hout => absurd hout hinside) (fun hout => absurd hout hinside) hbrace
  | outside =>
    rw [hq] at hquote
    rw [if_neg (by decide)]
    split
    · refine tidy_of_framed ?_ ?_ ?_ ?_ next
      · exact hflush
      · exact hword
      · exact hquote
      · exact fun hjoins => absurd hjoins Bool.false_ne_true
    rename_i hblank
    split
    · -- an interpolation may be joined to any part
      refine tidy_of_framed ?_ ?_ ?_ ?_ next
      · refine ⟨trivial, ⟨fun hjoins => ?_, trivial⟩, hflush⟩
        have hboth : (!(st.flush lookup place).spaced) = true ∧
            (!(st.flush lookup place).innermost.isEmpty) = true := Bool.and_eq_true_iff.1 hjoins
        have hne : (st.flush lookup place).innermost ≠ [] := by simpa using hboth.2
        exact Value.lastBefore_ne_nothing hne _
      · exact hword
      · exact hquote
      · exact fun hjoins => absurd (hjoins.symm.trans (Bool.and_false _)) (by decide)
    rename_i hhash
    split
    · -- the word becomes the name of a call
      refine tidy_of_framed ?_ ?_ ?_ ?_ next
      · exact ⟨trivial, ⟨h.word, h.quote.symm.trans hq, h.joins, trivial⟩, h.framed⟩
      · rfl
      · rfl
      · exact fun hjoins => absurd (hjoins.symm.trans (Bool.and_false _)) (by decide)
    rename_i hparen
    have hkeep : (c = ')' ∨ c = '\x7d' → st.opened.isEmpty = true) → (st.keep c).Tidy next := by
      intro hclose
      refine h.keep (fun _ => ?_) (fun _ hc hnext => hhash ⟨hc, hnext⟩) hbrace
      have hbehind : (Text.endsInHash false .outside st.word && c == '\x7b') = false := by
        refine Bool.eq_false_iff.2 fun hboth => ?_
        rw [Bool.and_eq_true, beq_iff_eq] at hboth
        exact h.hash hboth.1 (congrArg some hboth.2)
      have hcloses : (!st.opened.isEmpty && (c == ')' || c == '\x7d')) = false := by
        refine Bool.eq_false_iff.2 fun hboth => ?_
        rw [Bool.and_eq_true, Bool.or_eq_true, beq_iff_eq, beq_iff_eq] at hboth
        rw [hclose hboth.2] at hboth
        exact absurd hboth.1 (by decide)
      simp [Text.keepsWord, hblank, hparen, hbehind, hcloses]
    split
    · split
      · exact hkeep fun _ => ‹_›
      · rename_i hopened
        obtain ⟨hquote', -⟩ := close_frame (st.flush lookup place)
        have hempty := isEmpty_opened_eq (around_flush lookup place st)
        refine tidy_of_framed (framed_close hflush) ((word_close _).trans hword)
          (hquote'.trans hquote) ?_ next
        exact fun _ => lastBefore_close (by rw [hempty]; exact hopened)
    · exact hkeep fun hclose => absurd hclose ‹_›

variable (lookup place) in
theorem Tidy.run {t : Text} (h : st.Tidy t.head?) : (st.run lookup place t).Tidy none := by
  induction t generalizing st with
  | nil => exact h
  | cons c cs ih =>
    have hact := h.act lookup place cs.head?
    exact ih ⟨hact.framed, hact.word, hact.quote, hact.joins, hact.hash, hact.brace⟩

theorem length_opened_close {st : ValueState} : st.close.opened.length = st.opened.length - 1 := by
  obtain ⟨body, opened, word, spaced, quote, atBrace, count, ds⟩ := st
  match opened with
  | [] => rfl
  | [_] => rfl
  | _ :: _ :: _ => rfl

/-- Closing everything that is open leaves readable parts. -/
theorem readable_closeAll (opened : List OpenCompound) {st : ValueState}
    (h : Framed st.opened st.body) (hlength : st.opened.length = opened.length) :
    Value.Readable false .nothing (opened.foldl (fun st _ => st.close) st).body := by
  induction opened generalizing st with
  | nil =>
    rw [List.length_eq_zero_iff.1 hlength] at h
    exact h
  | cons o os ih =>
    refine ih (framed_close h) ?_
    rw [length_opened_close, hlength]
    rfl

end ValueState

theorem ValueState.tidy_start (next : Option Char) : ValueState.Tidy next {} := by
  refine tidy_of_framed ?_ rfl rfl ?_ next
  · exact trivial
  · exact fun hjoins => absurd hjoins Bool.false_ne_true

/-- Whatever is read as a value is readable. -/
theorem readable_readValue (lookup : Lookups) (place : ValuePlace) (raw : Text) :
    Value.Readable false .nothing (readValue lookup place raw).1 := by
  have hstart := ValueState.tidy_start raw.head?
  exact ValueState.readable_closeAll _ ((hstart.run lookup place).flush lookup place) rfl

/-! ## Values without their targets -/

namespace Value

mutual

theorem closedOne_retarget (e : Option Location → Option Location) (v : Value) :
    closedOne (retargetOfOne e v) = closedOne v :=
  match v with
  | literal _ _ => rfl
  | reference _ _ => rfl
  | compound _ body _ => closedAll_retarget e body

theorem closedAll_retarget (e : Option Location → Option Location) (vs : List Value) :
    closedAll (retarget e vs) = closedAll vs :=
  match vs with
  | [] => rfl
  | v :: vs => by
    rw [retarget, closedAll, closedAll, closedOne_retarget e v, closedAll_retarget e vs]

end

/-- Whether the strings of a value are closed does not depend on its references. -/
theorem closed_shape (vs : List Value) : Closed (shape vs) ↔ Closed vs := by
  rcases vs.eq_nil_or_concat' with rfl | ⟨front, last, rfl⟩
  · exact Iff.rfl
  have hshape : shape (front ++ [last]) = shape front ++ [retargetOfOne (fun _ => none) last] :=
    shape_append front [last]
  have hliteral : (∃ text j, retargetOfOne (fun _ => none) last = literal text j) ↔
      ∃ text j, last = literal text j := by
    cases last <;> simp [retargetOfOne]
  simp only [Closed, hshape, List.dropLast_concat, List.getLast?_concat, Option.mem_some_iff,
    forall_eq', hliteral, closedOne_retarget]
  rw [shape, closedAll_retarget]

end Value

/-- What was read is read again from its text. -/
theorem valueParts_render_valueParts {raw : Text} (h : Value.Closed (valueParts raw)) :
    valueParts (Value.render (valueParts raw)) = valueParts raw := by
  rw [valueParts, Value.closed_shape] at h
  conv_lhs => rw [valueParts.eq_def raw, Value.shape, Value.render_retarget]
  exact valueParts_render (readable_readValue ..) h

/-! ## The characters of a value -/

namespace ValueState

variable {p : Char → Prop} {st : ValueState}

/-- The characters that were read satisfy `p`. -/
structure Spelled (p : Char → Prop) (st : ValueState) : Prop where
  body : ∀ c ∈ Value.render st.body, p c
  opened : ∀ o ∈ st.opened, (∀ c ∈ o.form.opening, p c) ∧ ∀ c ∈ Value.render o.body, p c
  word : ∀ c ∈ st.word, p c

/-- The characters that are written between the parts. -/
def isFiller (c : Char) : Bool := " ()#\x7b\x7d".toList.contains c

theorem Spelled.enter (h : Spelled p st) {form : Form} (hform : ∀ c ∈ form.opening, p c) :
    Spelled p (st.enter form) := by
  refine ⟨h.body, fun o ho => ?_, h.word⟩
  rcases List.mem_cons.1 ho with rfl | hmem
  · exact ⟨hform, by simp [Value.render]⟩
  · exact h.opened o hmem

section

variable (hfill : ∀ c, isFiller c = true → p c)

include hfill

theorem spelled_renderOne {v : Value} (h : ∀ c ∈ Value.bare v, p c) :
    ∀ c ∈ Value.renderOne v, p c := by
  intro c hc
  rw [Value.renderOne_eq] at hc
  rcases List.mem_append.1 hc with hgap | hbare
  · refine hfill c ?_
    unfold Value.gap at hgap
    split at hgap
    · cases hgap
    · rw [List.mem_singleton.1 hgap]
      decide
  · exact h c hbare

theorem Spelled.push (h : Spelled p st) {v : Value} (hv : ∀ c ∈ Value.bare v, p c) :
    Spelled p (st.push v) := by
  have hsnoc : ∀ body : List Value, (∀ c ∈ Value.render body, p c) →
      ∀ c ∈ Value.render (body ++ [v]), p c := by
    intro body hbody c hc
    rw [Value.render_append, Value.render, Value.render, List.append_nil] at hc
    rcases List.mem_append.1 hc with hold | hnew
    · exact hbody c hold
    · exact spelled_renderOne hfill hv c hnew
  unfold ValueState.push
  split
  · exact ⟨hsnoc _ h.body, h.opened, h.word⟩
  · rename_i o os hopen
    have hown := h.opened o (by rw [hopen]; exact List.mem_cons_self ..)
    refine ⟨h.body, fun o' ho' => ?_, h.word⟩
    rcases List.mem_cons.1 ho' with rfl | hmem
    · exact ⟨hown.1, hsnoc _ hown.2⟩
    · exact h.opened o' (by rw [hopen]; exact List.mem_cons_of_mem _ hmem)

theorem Spelled.flush (h : Spelled p st) (lookup : Lookups) (place : ValuePlace) :
    Spelled p (st.flush lookup place) := by
  have hcut : ∀ ds, Spelled p { st with word := [], diagnostics := ds } :=
    fun _ => ⟨h.body, h.opened, by simp⟩
  unfold ValueState.flush
  split
  · exact h
  · dsimp only
    split
    · exact (hcut st.diagnostics).push hfill h.word
    · exact (hcut _).push hfill h.word

theorem Spelled.close (h : Spelled p st) : Spelled p st.close := by
  unfold ValueState.close
  split
  · exact h
  · rename_i o os hopen
    have hown := h.opened o (by rw [hopen]; exact List.mem_cons_self ..)
    have hrest : Spelled p { st with opened := os } :=
      ⟨h.body, fun o' ho' => h.opened o' (by rw [hopen]; exact List.mem_cons_of_mem _ ho'), h.word⟩
    refine hrest.push hfill fun c hc => ?_
    simp only [Value.bare, List.mem_append] at hc
    rcases hc with (hopening | hbody) | hclosing
    · exact hown.1 c hopening
    · refine hown.2 c ?_
      unfold Value.dropSpace at hbody
      split at hbody
      · rename_i heq
        rw [heq]
        exact List.mem_cons_of_mem _ hbody
      · exact hbody
    · refine hfill c ?_
      cases hform : o.form <;> rw [hform] at hclosing <;>
        rw [List.mem_singleton.1 hclosing] <;> decide

theorem Spelled.act (h : Spelled p st) (lookup : Lookups) (place : ValuePlace) {c : Char} (hc : p c)
    (next : Option Char) : Spelled p (st.act lookup place c next) := by
  have hflush := h.flush hfill lookup place
  have hkeep : Spelled p (st.keep c) := by
    refine ⟨h.body, h.opened, fun d hd => ?_⟩
    rcases List.mem_append.1 hd with hold | hnew
    · exact h.word d hold
    · rw [List.mem_singleton.1 hnew]
      exact hc
  unfold ValueState.act
  split_ifs
  · exact ⟨h.body, h.opened, h.word⟩
  · exact hkeep
  · exact ⟨hflush.body, hflush.opened, hflush.word⟩
  · have hform : ∀ d ∈ Form.interpolation.opening, p d := by
      intro d hd
      simp only [Form.opening, List.mem_cons, List.not_mem_nil, or_false] at hd
      rcases hd with rfl | rfl
      · exact hfill '#' (by decide)
      · exact hfill '\x7b' (by decide)
    have henter := hflush.enter hform
    exact ⟨henter.body, henter.opened, henter.word⟩
  · have hcut : Spelled p { st with word := [] } := ⟨h.body, h.opened, by simp⟩
    refine hcut.enter fun d hd => ?_
    rcases List.mem_append.1 hd with hword | hparen
    · exact h.word d hword
    · rw [List.mem_singleton.1 hparen]
      exact hfill '(' (by decide)
  · exact hkeep
  · exact hflush.close hfill
  · exact hkeep

theorem Spelled.run (h : Spelled p st) (lookup : Lookups) (place : ValuePlace) {t : Text}
    (ht : ∀ c ∈ t, p c) : Spelled p (st.run lookup place t) := by
  induction t generalizing st with
  | nil => exact h
  | cons c cs ih =>
    have hact := h.act hfill lookup place (ht c (List.mem_cons_self ..)) cs.head?
    exact ih ⟨hact.body, hact.opened, hact.word⟩ fun d hd => ht d (List.mem_cons_of_mem _ hd)

theorem Spelled.finish (h : Spelled p st) (lookup : Lookups) (place : ValuePlace) :
    Spelled p (st.finish lookup place) := by
  have hclose : ∀ (opened : List OpenCompound) {st : ValueState}, Spelled p st →
      Spelled p (opened.foldl (fun st _ => st.close) st) := by
    intro opened
    induction opened with
    | nil => exact fun h => h
    | cons o os ih => exact fun h => ih (h.close hfill)
  exact hclose _ (h.flush hfill lookup place)

end

end ValueState

/-- A value is written with the characters that were read, and the ones between parts. -/
theorem feed_render_valueParts {raw : Text} (h : '\n' ∉ raw) :
    '\n' ∉ Value.render (valueParts raw) := by
  have hfill : ∀ c, ValueState.isFiller c = true → c ≠ '\n' := by
    rintro c hc rfl
    revert hc
    decide
  have hstart : ValueState.Spelled (· ≠ '\n') {} := ⟨by simp [Value.render], by simp, by simp⟩
  have hraw : ∀ c ∈ raw, c ≠ '\n' := by
    rintro c hc rfl
    exact h hc
  intro hmem
  rw [valueParts, Value.shape, Value.render_retarget] at hmem
  exact ((hstart.run hfill _ _ hraw).finish hfill _ _).body '\n' hmem rfl

end IndentedSass
