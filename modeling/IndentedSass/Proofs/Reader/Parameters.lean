/-
  Mixins that are read back.

  The parameters of a mixin are written one after the other between parentheses, each with its name
  and its default value.  They are told apart again when no comma stands outside of strings and
  parentheses in one of them, and only the last one leaves some open.

  * `getLast?_render_valueParts`: a value ends in no white space when its text does not;
  * `Text.Entire` and `splitArguments_separated`: the arguments of a list; `Text.Apart` and
    `splitArguments_intercalate`: those that are split off again;
  * `Parameter.parts_text`: a parameter is read back from its text, unless a string in its default
    value is left open or its name ends in a backslash;
  * `Line.tells_mixin`: a mixin is read back from its text.
-/
import Mathlib
import IndentedSass.Proofs.Line.Columns
import IndentedSass.Proofs.Reader.Retold

namespace IndentedSass

/-! ## The end of a value -/

namespace ValueState

variable {lookup : Lookups} {place : ValuePlace} {st : ValueState}

/-- The brace of an interpolation is only awaited inside of it. -/
def BraceOpen (st : ValueState) : Prop := st.atBrace = true → st.opened ≠ []

theorem braceOpen_act (lookup : Lookups) (place : ValuePlace) (st : ValueState) (c : Char)
    (next : Option Char) : (st.act lookup place c next).BraceOpen := by
  have hflush := (flush_frame lookup place st).2.1
  unfold act
  split
  · exact fun h => absurd h Bool.false_ne_true
  rename_i hbrace
  have hnever : ∀ st' : ValueState, st'.atBrace = st.atBrace → st'.BraceOpen :=
    fun st' h htrue => absurd (h.symm.trans htrue) hbrace
  split_ifs
  · exact hnever _ rfl
  · exact hnever _ hflush
  · exact fun _ => List.cons_ne_nil _ _
  · exact hnever _ rfl
  · exact hnever _ rfl
  · exact hnever _ ((close_frame _).2.trans hflush)
  · exact hnever _ rfl

/-- What was read so far ends in no white space, when no blank follows. -/
structure Ends (st : ValueState) : Prop where
  word : ∀ c ∈ st.word.getLast?, isWhite c = false
  part : st.word = [] → st.opened = [] → ∀ v ∈ st.body.getLast?, v.asBefore = .compound

theorem lastPart_close (h : st.opened ≠ []) (hclose : st.close.opened = []) :
    ∀ v ∈ st.close.body.getLast?, v.asBefore = .compound := by
  obtain ⟨body, opened, word, spaced, quote, atBrace, count, ds⟩ := st
  match opened with
  | [] => exact absurd rfl h
  | [o] =>
    intro v hv
    rw [show (close ⟨body, [o], word, spaced, quote, atBrace, count, ds⟩).body =
      body ++ [.compound o.form o.body o.joined] from rfl, List.getLast?_concat] at hv
    cases hv
    rfl
  | o :: o' :: os => cases hclose

variable (lookup place) in
/-- Behind a character that is no white space, what was read ends in none. -/
theorem ends_act {c : Char} (hc : isWhite c = false) (htidy : st.Tidy (some c))
    (hopen : st.BraceOpen) (next : Option Char) : (st.act lookup place c next).Ends := by
  obtain ⟨-, -, hword⟩ := flush_frame lookup place st
  have hkeep : (st.keep c).Ends := by
    refine ⟨fun d hd => ?_, fun hnil => absurd hnil (by simp [keep])⟩
    rw [keep, List.getLast?_concat] at hd
    cases hd
    exact hc
  have hempty : ∀ st' : ValueState, st'.word = [] →
      (st'.opened = [] → ∀ v ∈ st'.body.getLast?, v.asBefore = .compound) → st'.Ends := by
    intro st' hnil hpart
    refine ⟨fun d hd => ?_, fun _ => hpart⟩
    rw [hnil] at hd
    cases hd
  unfold act
  split
  · rename_i hbrace
    exact hempty _ (htidy.brace hbrace) fun hnone => absurd hnone (hopen hbrace)
  split_ifs with hinside hblank hhash hparen hclose hopened
  · exact hkeep
  · rw [isWhite_of_isBlank hblank] at hc
    cases hc
  · exact hempty _ hword fun hnone => absurd hnone (List.cons_ne_nil _ _)
  · exact hempty _ rfl fun hnone => absurd hnone (List.cons_ne_nil _ _)
  · exact hkeep
  · refine hempty _ ((word_close _).trans hword) (lastPart_close fun hnone => hopened ?_)
    rw [← isEmpty_opened_eq (around_flush lookup place st), hnone]
    rfl
  · exact hkeep

variable (lookup place) in
theorem ends_run {t : Text} (hne : t ≠ []) (hlast : ∀ c ∈ t.getLast?, isWhite c = false)
    (htidy : st.Tidy t.head?) (hopen : st.BraceOpen) : (st.run lookup place t).Ends := by
  induction t generalizing st with
  | nil => exact absurd rfl hne
  | cons c cs ih =>
    cases cs with
    | nil =>
      have hact := ends_act lookup place (hlast c rfl) htidy hopen none
      exact ⟨hact.word, hact.part⟩
    | cons d ds =>
      have hact := htidy.act lookup place (some d)
      rw [List.getLast?_cons_cons] at hlast
      exact ih (List.cons_ne_nil _ _) hlast
        ⟨hact.framed, hact.word, hact.quote, hact.joins, hact.hash, hact.brace⟩
        (braceOpen_act lookup place st c (some d))

/-- Closing everything leaves a compound as the last part. -/
theorem lastPart_closeAll (opened : List OpenCompound) (hne : opened ≠ []) {st : ValueState}
    (hlength : st.opened.length = opened.length) :
    ∀ v ∈ (opened.foldl (fun st _ => st.close) st).body.getLast?, v.asBefore = .compound := by
  have hclose := @length_opened_close st
  match opened, hne with
  | [o], _ =>
    refine lastPart_close (fun hnone => ?_) (List.length_eq_zero_iff.1 ?_)
    · rw [hnone] at hlength
      cases hlength
    · rw [hclose, hlength]
      rfl
  | o :: o' :: os, _ =>
    exact lastPart_closeAll (o' :: os) (List.cons_ne_nil _ _) (by rw [hclose, hlength]; rfl)

/-- The last part of a value, when what was read ends in no white space. -/
theorem Ends.lastPart (h : st.Ends) (lookup : Lookups) (place : ValuePlace) :
    ∀ v ∈ (st.finish lookup place).body.getLast?,
      ∀ c ∈ (Value.bare v).getLast?, isWhite c = false := by
  have hcompound : ∀ v : Value, v.asBefore = .compound →
      ∀ c ∈ (Value.bare v).getLast?, isWhite c = false := by
    intro v hv c hc
    cases v with
    | literal => cases hv
    | reference => cases hv
    | compound form body j =>
      rw [Value.bare] at hc
      cases form <;> rw [Form.closing, List.getLast?_concat] at hc <;> cases hc <;> decide
  have hopened := isEmpty_opened_eq (around_flush lookup place st)
  by_cases hnone : st.opened = []
  · have haround : st.around = none := by rw [around, hnone]
    have hinner : st.innermost = st.body := by rw [innermost, hnone]
    rw [body_finish lookup place haround]
    by_cases hword : st.word = []
    · rw [flush_nil _ _ hword, hinner]
      exact fun v hv => hcompound v (h.part hword hnone v hv)
    · intro v hv c hc
      refine h.word c ?_
      unfold flush at hv
      rw [if_neg (by simpa using hword)] at hv
      dsimp only at hv
      split at hv <;> rw [innermost_push, List.getLast?_concat] at hv <;> cases hv <;> exact hc
  · have hsome : (st.flush lookup place).opened ≠ [] := by
      intro hnil
      rw [hnil] at hopened
      exact hnone (List.isEmpty_iff.1 hopened.symm)
    exact fun v hv => hcompound v (lastPart_closeAll _ hsome rfl v hv)

end ValueState

theorem Value.getLast?_render {vs : List Value} {v : Value} (h : vs.getLast? = some v)
    (hne : Value.bare v ≠ []) : (Value.render vs).getLast? = (Value.bare v).getLast? := by
  obtain ⟨front, rfl⟩ := List.getLast?_eq_some_iff.1 h
  rw [Value.render_append, Value.render, Value.render, List.append_nil, Value.renderOne_eq,
    ← List.append_assoc, List.getLast?_append_of_ne_nil _ hne]

/-- A value ends in no white space when its text does not. -/
theorem getLast?_render_valueParts {raw : Text} (h : ∀ c ∈ raw.getLast?, isWhite c = false) :
    ∀ c ∈ (Value.render (valueParts raw)).getLast?, isWhite c = false := by
  rw [valueParts, Value.shape, Value.render_retarget]
  by_cases hraw : raw = []
  · subst hraw
    intro c hc
    cases hc
  have hreadable := readable_readValue (fun _ _ _ _ => none) ⟨0, 0, 0⟩ raw
  have hrun := ValueState.ends_run (fun _ _ _ _ => none) ⟨0, 0, 0⟩ hraw h
    (ValueState.tidy_start _) fun hbrace => absurd hbrace Bool.false_ne_true
  have hends : ∀ v ∈ (readValue (fun _ _ _ _ => none) ⟨0, 0, 0⟩ raw).1.getLast?,
      ∀ c ∈ (Value.bare v).getLast?, isWhite c = false := hrun.lastPart _ _
  generalize (readValue (fun _ _ _ _ => none) ⟨0, 0, 0⟩ raw).1 = vs at hreadable hends
  rcases vs.eq_nil_or_concat' with rfl | ⟨front, v, rfl⟩
  · intro c hc
    cases hc
  · have hlast : (front ++ [v]).getLast? = some v := List.getLast?_concat
    have hone := (Value.readable_append.1 hreadable).2.1
    rw [Value.getLast?_render hlast hone.bare_ne_nil]
    exact hends v hlast

/-! ## Arguments -/

namespace Text

/-- No comma of a text stands outside of strings and parentheses, from a state of the scan on. -/
def OneArgument (depth : Nat) (q : Quote) : Text → Prop
  | [] => True
  | c :: cs =>
    ¬(q.isOutside = true ∧ c = ',' ∧ depth = 0) ∧
      OneArgument (Line.parenDepth q depth c) (q.step .never c) cs

instance decidableOneArgument : ∀ depth q t, Decidable (OneArgument depth q t)
  | _, _, [] => isTrue trivial
  | depth, q, c :: cs =>
    haveI := decidableOneArgument (Line.parenDepth q depth c) (q.step .never c) cs
    inferInstanceAs (Decidable (_ ∧ _))

/-- The state of the scan at the end of a text. -/
def argumentEnd (depth : Nat) (q : Quote) : Text → Nat × Quote
  | [] => (depth, q)
  | c :: cs => argumentEnd (Line.parenDepth q depth c) (q.step .never c) cs

theorem oneArgument_append {s t : Text} {depth : Nat} {q : Quote} :
    OneArgument depth q (s ++ t) ↔ OneArgument depth q s ∧
      OneArgument (argumentEnd depth q s).1 (argumentEnd depth q s).2 t := by
  induction s generalizing depth q with
  | nil => exact (true_and _).symm ▸ Iff.rfl
  | cons c s ih => rw [List.cons_append, OneArgument, OneArgument, ih, argumentEnd, and_assoc]

theorem argumentEnd_append {s t : Text} {depth : Nat} {q : Quote} :
    argumentEnd depth q (s ++ t) =
      argumentEnd (argumentEnd depth q s).1 (argumentEnd depth q s).2 t := by
  induction s generalizing depth q with
  | nil => rfl
  | cons c s ih => rw [List.cons_append, argumentEnd, argumentEnd, ih]

/-- One argument, in which nothing is left open. -/
structure Entire (t : Text) : Prop where
  one : OneArgument 0 .outside t
  closed : argumentEnd 0 .outside t = (0, .outside)

instance (t : Text) : Decidable (Entire t) :=
  decidable_of_iff' (_ ∧ _) ⟨fun h => ⟨h.one, h.closed⟩, fun h => ⟨h.1, h.2⟩⟩

theorem Entire.append {s t : Text} (hs : Entire s) (ht : Entire t) : Entire (s ++ t) := by
  constructor
  · rw [oneArgument_append, hs.closed]
    exact ⟨hs.one, ht.one⟩
  · rw [argumentEnd_append, hs.closed]
    exact ht.closed

/-- What is no comma, parenthesis or mark leaves nothing open. -/
theorem entire_plain {t : Text}
    (h : ∀ c ∈ t, isQuoteMark c = false ∧ c ≠ ',' ∧ c ≠ '(' ∧ c ≠ ')') : Entire t := by
  induction t with
  | nil => exact ⟨trivial, rfl⟩
  | cons c t ih =>
    obtain ⟨⟨hmark, hcomma, hopen, hclose⟩, ht⟩ := List.forall_mem_cons.1 h
    have hrest := ih ht
    have hdepth : Line.parenDepth .outside 0 c = 0 := by
      simp [Line.parenDepth, Quote.isOutside, hopen, hclose]
    constructor
    · rw [OneArgument, hdepth, Quote.step_outside .never hmark]
      exact ⟨fun habs => hcomma habs.2.1, hrest.one⟩
    · rw [argumentEnd, hdepth, Quote.step_outside .never hmark]
      exact hrest.closed

theorem entire_blanks {ws : Text} (h : Blanks ws) : Entire ws := by
  refine entire_plain fun c hc => ?_
  rcases isBlank_iff.1 (h c hc) with rfl | rfl <;> decide

/-- An argument without the blanks before it and the white space behind it. -/
def argument (t : Text) : Text := t.body.trimEnd

/-- Arguments that can be told apart when they are written one after the other: no comma stands
    outside of strings and parentheses, only in the last one can some of these be open at the end,
    and the last one is not empty. -/
structure Apart (arguments : List Text) : Prop where
  one : ∀ t ∈ arguments, OneArgument 0 .outside t
  closed : ∀ t ∈ arguments.dropLast, argumentEnd 0 .outside t = (0, .outside)
  last : arguments.getLast? ≠ some []

instance (arguments : List Text) : Decidable (Apart arguments) :=
  decidable_of_iff' (_ ∧ _ ∧ _) ⟨fun h => ⟨h.one, h.closed, h.last⟩, fun h => ⟨h.1, h.2.1, h.2.2⟩⟩

/-- A text without white space at its ends. -/
def Bare (t : Text) : Prop :=
  (∀ c ∈ t.head?, isWhite c = false) ∧ ∀ c ∈ t.getLast?, isWhite c = false

theorem bare_trim (t : Text) : Bare t.trim := by
  refine ⟨fun c hc => ?_, fun c hc => getLast?_trimEnd _ c hc⟩
  cases h : t.trim with
  | nil =>
    rw [h] at hc
    cases hc
  | cons d rest =>
    rw [h] at hc
    cases hc
    exact head_trim h

theorem Bare.trimEnd_eq {t : Text} (h : Bare t) : t.trimEnd = t := trimEnd_eq_self h.2

end Text

/-- An argument is read up to its end. -/
theorem splitArguments_one {current t : Text} {depth : Nat} {q : Quote} (start column : Nat)
    (rest : Text) (hne : t ≠ []) (hstart : current = [] → ∀ c ∈ t.head?, isBlank c = false)
    (h : Text.OneArgument depth q t) :
    ∃ start', splitArguments current start depth q column (t ++ rest) =
      splitArguments (current ++ t) start' (Text.argumentEnd depth q t).1
        (Text.argumentEnd depth q t).2 (column + t.length) rest := by
  induction t generalizing current depth q start column with
  | nil => exact absurd rfl hne
  | cons c cs ih =>
    obtain ⟨hcomma, hcs⟩ := h
    have hfirst : ¬(current.isEmpty && isBlank c) = true := by
      rw [Bool.and_eq_true, List.isEmpty_iff]
      rintro ⟨hnil, hblank⟩
      rw [hstart hnil c rfl] at hblank
      cases hblank
    have hkeep : ¬(q.isOutside && c == ',' && depth == 0) = true := by
      simpa [and_assoc] using hcomma
    rw [List.cons_append, splitArguments, if_neg hfirst]
    dsimp only
    rw [if_neg hkeep]
    by_cases hnil : cs = []
    · subst hnil
      exact ⟨_, rfl⟩
    · obtain ⟨start', hrest⟩ := ih (if current.isEmpty then column else start) (column + 1) hnil
        (fun hnone => absurd hnone (show current ++ [c] ≠ [] by simp)) hcs
      refine ⟨start', ?_⟩
      rw [hrest, List.append_assoc, List.length_cons]
      simp [Text.argumentEnd, Nat.add_assoc, Nat.add_comm 1]

/-- Blanks before an argument are skipped. -/
theorem splitArguments_blanks {ws : Text} (h : Blanks ws) (start depth column : Nat) (q : Quote)
    (rest : Text) : splitArguments [] start depth q column (ws ++ rest) =
      splitArguments [] start depth q (column + ws.length) rest := by
  induction ws generalizing column with
  | nil => rfl
  | cons c ws ih =>
    rw [List.cons_append, splitArguments, if_pos (by simpa using h c (List.mem_cons_self ..)),
      ih fun c hc => h c (List.mem_cons_of_mem _ hc), List.length_cons, Nat.add_assoc,
      Nat.add_comm 1]

/-- An argument is split off up to its end, without the blanks before it. -/
theorem splitArguments_argument {t : Text} (h : Text.OneArgument 0 .outside t) (start column : Nat)
    (rest : Text) :
    ∃ start' column', splitArguments [] start 0 .outside column (t ++ rest) =
      splitArguments t.body start' (Text.argumentEnd 0 .outside t).1
        (Text.argumentEnd 0 .outside t).2 column' rest := by
  have hblanks : Blanks t.blanks := fun c hc => List.mem_takeWhile_imp hc
  have hhead : ∀ c ∈ t.body.head?, isBlank c = false := by
    intro c hc
    cases hbody : t.body with
    | nil => simp [hbody] at hc
    | cons d rest =>
      rw [hbody] at hc
      cases hc
      exact Line.isBlank_head_body hbody
  generalize hbody : t.body = body at hhead
  have hsplit : t = t.blanks ++ body := hbody ▸ (Text.blanks_append_body t).symm
  generalize t.blanks = ws at hblanks hsplit
  subst hsplit
  have hclosed := (Text.entire_blanks hblanks).closed
  rw [Text.oneArgument_append, hclosed] at h
  rw [Text.argumentEnd_append, hclosed, List.append_assoc, splitArguments_blanks hblanks]
  by_cases hnil : body = []
  · subst hnil
    exact ⟨start, _, rfl⟩
  · obtain ⟨start', hone⟩ := splitArguments_one start (column + ws.length) rest hnil
      (fun _ => hhead) h.2
    exact ⟨start', _, hone⟩

/-- The first argument begins with what is read of it. -/
theorem splitArguments_head {current : Text} {c : Char} (hfirst : current.head? = some c)
    (hc : isWhite c = false) (start depth column : Nat) (q : Quote) (t : Text) :
    ∃ n start' rest, splitArguments current start depth q column t =
      ((current ++ t.take n).trimEnd, start') :: rest := by
  have hne : current.isEmpty = false := by
    cases current with
    | nil => cases hfirst
    | cons => rfl
  induction t generalizing current start depth q column with
  | nil =>
    obtain ⟨cs, rfl⟩ := List.head?_eq_some_iff.1 hfirst
    refine ⟨0, start, [], ?_⟩
    rw [splitArguments, List.take_nil, List.append_nil, Text.trimEnd_cons hc]
    rfl
  | cons d t ih =>
    rw [splitArguments, if_neg (by simp [hne])]
    dsimp only
    split
    · exact ⟨0, _, _, by rw [List.take_zero, List.append_nil]⟩
    · have hnext : (current ++ [d]).head? = some c := by rw [List.head?_append, hfirst]; rfl
      obtain ⟨n, start', rest, hrest⟩ := ih hnext _ _ _ _ (by simp)
      exact ⟨n + 1, start', rest, by rw [hrest, List.append_assoc]; rfl⟩

/-- The first argument ends at a comma outside of strings and parentheses, or at the end. -/
theorem splitArguments_end {current t : Text} {c : Char} (hfirst : current.head? = some c)
    (hc : isWhite c = false) (ht : ∀ d ∈ t.head?, d = ',') (start column : Nat) :
    ∃ rest, splitArguments current start 0 .outside column t = (current.trimEnd, start) :: rest := by
  obtain ⟨cs, rfl⟩ := List.head?_eq_some_iff.1 hfirst
  cases t with
  | nil =>
    rw [splitArguments, Text.trimEnd_cons hc]
    exact ⟨[], rfl⟩
  | cons d t =>
    obtain rfl : d = ',' := ht d rfl
    rw [splitArguments, if_neg (by simp)]
    exact ⟨_, rfl⟩

/-- Behind a comma at which nothing is open, the arguments are split off as those of another list. -/
theorem splitArguments_behind {current s : Text} {start depth column : Nat} {q : Quote}
    (hq : current = [] → q = .outside) (h : Text.argumentEnd depth q s = (0, .outside))
    (rest : Text) :
    ∃ front start' column', splitArguments current start depth q column (s ++ ',' :: rest) =
      front ++ splitArguments [] start' 0 .outside column' rest := by
  induction s generalizing current start depth q column with
  | nil =>
    obtain ⟨rfl, rfl⟩ := Prod.mk.inj h
    rw [List.nil_append, splitArguments, if_neg (by simp [isBlank])]
    exact ⟨[_], _, _, rfl⟩
  | cons c s ih =>
    -- where nothing of an argument is read, the character leaves the state of the scan as it is
    have hkeep : q = .outside → isQuoteMark c = false → c ≠ '(' → c ≠ ')' →
        Text.argumentEnd depth q s = (0, .outside) := by
      rintro rfl hmark hopen hclose
      rw [Text.argumentEnd, Quote.step_outside .never hmark] at h
      simpa [Line.parenDepth, Quote.isOutside, hopen, hclose] using h
    rw [List.cons_append, splitArguments]
    split
    · rename_i hblank
      obtain ⟨hcurrent, hblank⟩ := Bool.and_eq_true_iff.1 hblank
      have hout := hq (List.isEmpty_iff.1 hcurrent)
      refine ih (fun _ => hout) (hkeep hout ?_ ?_ ?_) <;>
        rcases isBlank_iff.1 hblank with rfl | rfl <;> decide
    · dsimp only
      split
      · rename_i hcomma
        obtain ⟨hcomma, hdepth⟩ := Bool.and_eq_true_iff.1 hcomma
        obtain ⟨hout, hcomma⟩ := Bool.and_eq_true_iff.1 hcomma
        obtain rfl : c = ',' := eq_of_beq hcomma
        have hquote : ([] : Text) = [] → q = .outside := fun _ => Quote.isOutside_iff.1 hout
        obtain ⟨front, start', column', hfront⟩ :=
          ih hquote (hkeep (hquote rfl) (by decide) (by decide) (by decide))
        exact ⟨_ :: front, start', column', by rw [hfront, List.cons_append]⟩
      · exact ih (fun habs => absurd habs (by simp)) h

/-- The arguments of a list are split off at the commas between them, each without the white
    space around it; the last one is left out when there is nothing else in it. -/
theorem splitArguments_separated {arguments : List Text} {last : Text}
    (hwhole : ∀ t ∈ arguments, Text.Entire t) (hlast : Text.OneArgument 0 .outside last)
    (start column : Nat) :
    (splitArguments [] start 0 .outside column
      (List.intercalate [','] (arguments ++ [last]))).map Prod.fst =
        arguments.map Text.argument ++ [last.argument].filter (!·.isEmpty) := by
  induction arguments generalizing start column with
  | nil =>
    obtain ⟨start', column', hsplit⟩ := splitArguments_argument hlast start column []
    rw [List.append_nil] at hsplit
    rw [List.nil_append, List.intercalate_singleton, hsplit, splitArguments, Text.argument]
    cases last.body.trimEnd <;> rfl
  | cons t rest ih =>
    obtain ⟨ht, hrest⟩ := List.forall_mem_cons.1 hwhole
    have hcomma : List.intercalate [','] (t :: rest ++ [last]) =
        t ++ ',' :: List.intercalate [','] (rest ++ [last]) := by
      cases rest <;> simp [List.intercalate_cons_cons]
    obtain ⟨start', column', hsplit⟩ := splitArguments_argument ht.one start column
      (',' :: List.intercalate [','] (rest ++ [last]))
    rw [ht.closed] at hsplit
    rw [hcomma, hsplit, splitArguments, if_neg (by simp [isBlank])]
    dsimp only
    rw [if_pos (by decide), List.map_cons, ih hrest]
    rfl

/-- The space behind a comma is the first character of the next argument. -/
theorem Text.intercalate_space (t : Text) (rest : List Text) :
    ' ' :: List.intercalate [',', ' '] (t :: rest) =
      List.intercalate [','] ((t :: rest).map (' ' :: ·)) := by
  induction rest generalizing t with
  | nil => rfl
  | cons u rest ih =>
    have hrest := ih u
    rw [List.map_cons] at hrest ⊢
    rw [List.map_cons, List.intercalate_cons_cons, List.intercalate_cons_cons, ← hrest]
    simp

/-- Arguments that can be told apart are split off again. -/
theorem splitArguments_intercalate {arguments : List Text} (hapart : Text.Apart arguments)
    (hbare : ∀ t ∈ arguments, Text.Bare t) (start column : Nat) :
    (splitArguments [] start 0 .outside column
      (List.intercalate [',', ' '] arguments)).map Prod.fst = arguments := by
  have hargument : ∀ t ∈ arguments, Text.argument (' ' :: t) = t := by
    intro t ht
    have hbody : Text.body t = t := by
      cases t with
      | nil => rfl
      | cons c cs =>
        refine List.dropWhile_cons_of_neg fun hblank => ?_
        have hwhite := (hbare _ ht).1 c rfl
        rw [isWhite_of_isBlank hblank] at hwhite
        cases hwhite
    exact (congrArg Text.trimEnd hbody).trans (hbare t ht).trimEnd_eq
  rcases arguments.eq_nil_or_concat' with rfl | ⟨front, last, rfl⟩
  · rfl
  obtain ⟨t, rest, hfirst⟩ : ∃ t rest, front ++ [last] = t :: rest :=
    List.exists_cons_of_ne_nil (by simp)
  have hblank : Blanks [' '] := List.forall_mem_singleton.2 rfl
  have hspace := splitArguments_blanks hblank start 0 column .outside
    (List.intercalate [',', ' '] (front ++ [last]))
  have hwhole : ∀ u ∈ front.map (' ' :: ·), Text.Entire u := by
    intro u hu
    obtain ⟨v, hv, rfl⟩ := List.mem_map.1 hu
    exact (Text.entire_blanks hblank).append
      ⟨hapart.one v (List.mem_append_left _ hv), hapart.closed v (by rwa [List.dropLast_concat])⟩
  have hlast : Text.OneArgument 0 .outside (' ' :: last) := ⟨nofun, hapart.one last (by simp)⟩
  have hne : last ≠ [] := fun hnil => hapart.last (by rw [List.getLast?_concat, hnil])
  rw [splitArguments_texts [] start start 0 .outside column (column + [' '].length), ← hspace,
    List.singleton_append, hfirst, Text.intercalate_space, ← hfirst, List.map_append, List.map_singleton,
    splitArguments_separated hwhole hlast, List.map_map,
    hargument last (by simp), List.filter_cons_of_pos (by simpa using hne), List.filter_nil]
  congr 1
  conv_rhs => rw [← List.map_id front]
  exact List.map_congr_left fun u hu => hargument u (List.mem_append_left _ hu)

/-- Every piece of a list of arguments ends in no white space. -/
theorem getLast?_of_mem_splitArguments {current t : Text} {start depth column : Nat} {q : Quote}
    {piece : Text × Nat} (h : piece ∈ splitArguments current start depth q column t) :
    ∀ c ∈ piece.1.getLast?, isWhite c = false := by
  induction t generalizing current start depth q column with
  | nil =>
    unfold splitArguments at h
    split at h
    · cases h
    · rw [List.mem_singleton.1 h]
      exact Text.getLast?_trimEnd current
  | cons c t ih =>
    unfold splitArguments at h
    split at h
    · exact ih h
    · dsimp only at h
      split at h
      · rcases List.mem_cons.1 h with rfl | hrest
        · exact Text.getLast?_trimEnd current
        · exact ih hrest
      · exact ih h

/-! ## Parameters -/

namespace Line

/-- Behind an open string and white space, no colon cuts. -/
theorem splitColon?_inside {ws b : Text} {mark : Char} {escaped e : Bool} (hw : White ws)
    (hmark : isWhite mark = false) :
    splitColon? (.inside mark escaped) e (ws ++ ':' :: b) ≠ some (ws, b) := by
  induction ws generalizing escaped e with
  | nil =>
    intro h
    rw [List.nil_append, splitColon?, if_neg (by simp [Quote.isOutside])] at h
    obtain ⟨⟨a, c⟩, -, heq⟩ := Option.map_eq_some_iff.1 h
    cases heq
  | cons w ws ih =>
    intro h
    rw [List.cons_append, splitColon?, if_neg (by simp [Quote.isOutside])] at h
    obtain ⟨⟨a, c⟩, hrest, heq⟩ := Option.map_eq_some_iff.1 h
    cases heq
    have hne : w ≠ mark := (ne_of_isWhite hmark (hw w (List.mem_cons_self ..))).symm
    rw [Quote.step, if_neg (by simp [hne])] at hrest
    exact ih (fun c hc => hw c (List.mem_cons_of_mem _ hc)) hrest

/-- White space before a colon is no part of the name, when the name ends in no backslash. -/
theorem splitColon?_white {q : Quote} {e : Bool} {a ws b : Text} (hw : White ws)
    (hq : ∀ mark escaped, q = .inside mark escaped → isWhite mark = false)
    (hlast : a.getLast? ≠ some '\\') (he : a = [] → e = false) :
    splitColon? q e (a ++ ws ++ ':' :: b) = some (a ++ ws, b) →
      ∀ b', splitColon? q e (a ++ ':' :: b') = some (a, b') := by
  induction a generalizing q e with
  | nil =>
    intro h b'
    cases q with
    | inside mark escaped => exact absurd h (splitColon?_inside hw (hq mark escaped rfl))
    | outside =>
      rw [he rfl]
      rfl
  | cons c a ih =>
    intro h b'
    rw [List.cons_append, List.cons_append, splitColon?] at h
    rw [List.cons_append, splitColon?]
    split at h
    · cases h
    rw [if_neg ‹_›]
    obtain ⟨⟨a', b''⟩, hrest, heq⟩ := Option.map_eq_some_iff.1 h
    cases heq
    have hnext : ∀ mark escaped, q.step .adjacent c = .inside mark escaped →
        isWhite mark = false := by
      intro mark escaped hstep
      cases q with
      | outside =>
        rw [Quote.step] at hstep
        split at hstep
        · rename_i hmark
          cases hstep
          rw [isQuoteMark, Bool.or_eq_true, beq_iff_eq, beq_iff_eq] at hmark
          rcases hmark with rfl | rfl <;> decide
        · cases hstep
      | inside mark' escaped' =>
        rw [Quote.step] at hstep
        split at hstep
        · cases hstep
        · cases hstep
          exact hq _ _ rfl
    rw [ih hnext ?_ ?_ hrest b']
    · rfl
    · intro hl
      refine hlast ?_
      cases a with
      | nil => cases hl
      | cons d a => rwa [List.getLast?_cons_cons]
    · rintro rfl
      simpa using hlast

theorem isPlain_of_isWhite {c : Char} (h : isWhite c = true) : isPlain c = true := by
  simpa using false_of_isWhite (p := fun c => !isPlain c) (by decide +kernel) h

/-- A text that holds no colon holds none when it is trimmed. -/
theorem splitDeclaration?_trim {t : Text} (h : splitDeclaration? t = none) :
    splitDeclaration? t.trim = none := by
  have hstart : ∀ {a b : Text} {q : Quote} {e : Bool}, splitColon? q e (a ++ b) = none →
      splitColon? q e a = none := by
    intro a
    induction a with
    | nil => exact fun _ => rfl
    | cons c a ih =>
      intro b q e h
      rw [List.cons_append, splitColon?] at h
      rw [splitColon?]
      split at h
      · cases h
      · rw [if_neg ‹_›, ih (Option.map_eq_none_iff.1 h)]
        rfl
  have hplain : ∀ c ∈ t.takeWhile isWhite, isPlain c = true :=
    fun c hc => isPlain_of_isWhite (List.mem_takeWhile_imp hc)
  rw [splitDeclaration?, Option.map_eq_none_iff] at h ⊢
  rw [← List.takeWhile_append_dropWhile (p := isWhite) (l := t), splitColon?_plain hplain,
    Option.map_eq_none_iff] at h
  obtain ⟨ws, -, hsplit⟩ := Text.exists_white (t.dropWhile isWhite)
  rw [hsplit] at h
  exact hstart h

end Line

/-- A value without open strings follows a parameter's name, which ends in no backslash. -/
def Parameter.Clear (p : Parameter) : Prop :=
  ∀ value, p.default? = some value → Value.Closed value ∧ p.name.getLast? ≠ some '\\'

instance (p : Parameter) : Decidable p.Clear :=
  inferInstanceAs (Decidable (∀ value ∈ p.default?, _))

namespace Parameter

theorem text_shape (p : Parameter) : p.shape.text = p.text := by
  obtain ⟨name, default?⟩ := p
  cases default? with
  | none => rfl
  | some value => simp [Parameter.shape, Parameter.text, Value.shape, Value.render_retarget]

/-- A parameter as it is written is read as the parameter. -/
theorem parts_text {written : Text} (h : (parts written).Clear) :
    parts (parts written).text = parts written := by
  unfold parts at h ⊢
  cases hd : Line.splitDeclaration? written with
  | none =>
    dsimp only
    rw [text]
    dsimp only
    rw [Line.splitDeclaration?_trim hd]
    dsimp only
    rw [Line.trim_trim]
  | some d =>
    rw [hd] at h
    obtain ⟨hclosed, hbackslash⟩ := h _ rfl
    obtain ⟨⟨before, value⟩, hcolon, rfl⟩ := Option.map_eq_some_iff.1 hd
    dsimp only at hclosed hbackslash ⊢
    -- the name stands between white space, which is not written
    have hcut : Line.splitColon? .outside false
        (before.trim ++ ':' :: Value.render (valueParts value)) =
          some (before.trim, Value.render (valueParts value)) := by
      obtain ⟨ws, hw, hsplit⟩ := Text.exists_white (before.dropWhile isWhite)
      have hbefore : before = before.takeWhile isWhite ++ (before.trim ++ ws) := by
        conv_lhs => rw [← List.takeWhile_append_dropWhile (p := isWhite) (l := before), hsplit]
        rfl
      have hplain : ∀ c ∈ before.takeWhile isWhite, Line.isPlain c = true :=
        fun c hc => Line.isPlain_of_isWhite (List.mem_takeWhile_imp hc)
      rw [Line.splitColon?_eq_some hcolon] at hcolon
      generalize before.takeWhile isWhite = lead at hbefore hplain
      rw [hbefore, List.append_assoc, Line.splitColon?_plain hplain] at hcolon
      obtain ⟨⟨a, b⟩, hrest, heq⟩ := Option.map_eq_some_iff.1 hcolon
      obtain ⟨hname, rfl⟩ := Prod.mk.inj heq
      rw [List.append_cancel_left hname] at hrest
      exact Line.splitColon?_white hw (by simp) hbackslash (fun _ => rfl) hrest _
    rw [text]
    dsimp only
    rw [Line.splitDeclaration?, hcut]
    dsimp only [Option.map_some]
    rw [Line.trim_trim, valueParts_render_valueParts hclosed]

/-- A parameter has no white space at its ends when it is written. -/
theorem bare_text {written : Text} (h : ∀ c ∈ written.getLast?, isWhite c = false) :
    Text.Bare (parts written).text := by
  unfold parts
  cases hd : Line.splitDeclaration? written with
  | none => exact Text.bare_trim written
  | some d =>
    obtain ⟨⟨before, value⟩, hcolon, rfl⟩ := Option.map_eq_some_iff.1 hd
    rw [Line.splitColon?_eq_some hcolon, List.getLast?_append_of_ne_nil _ (by simp)] at h
    have hvalue : ∀ c ∈ value.getLast?, isWhite c = false := by
      intro c hc
      cases value with
      | nil => cases hc
      | cons d rest => exact h c (by rwa [List.getLast?_cons_cons])
    rw [text]
    dsimp only
    constructor
    · intro c hc
      cases hname : before.trim with
      | nil =>
        rw [hname] at hc
        cases hc
        decide
      | cons a rest =>
        rw [hname] at hc
        cases hc
        exact Text.head_trim hname
    · intro c hc
      rw [List.getLast?_append_of_ne_nil _ (by simp)] at hc
      cases hr : Value.render (valueParts value) with
      | nil =>
        rw [hr] at hc
        cases hc
        decide
      | cons a rest =>
        rw [hr, List.getLast?_cons_cons, ← hr] at hc
        exact getLast?_render_valueParts hvalue c hc

theorem feed_text {written : Text} (h : '\n' ∉ written) : '\n' ∉ (parts written).text := by
  unfold parts
  cases hd : Line.splitDeclaration? written with
  | none => exact fun hmem => h (Text.mem_of_mem_trim hmem)
  | some d =>
    obtain ⟨⟨before, value⟩, hcolon, rfl⟩ := Option.map_eq_some_iff.1 hd
    rw [Line.splitColon?_eq_some hcolon] at h
    rw [text]
    dsimp only
    intro hmem
    rcases List.mem_append.1 hmem with hname | hrest
    · exact h (List.mem_append_left _ (Text.mem_of_mem_trim hname))
    · rcases List.mem_cons.1 hrest with hcolon | hrest
      · revert hcolon
        decide
      · exact feed_render_valueParts
          (fun hraw => h (List.mem_append_right _ (List.mem_cons_of_mem _ hraw))) hrest

end Parameter

/-! ## Mixins -/

/-- The parameters of a mixin are read back: each of them, and they can be told apart. -/
structure Parameters.Clear (parameters : List Parameter) : Prop where
  each : ∀ p ∈ parameters, p.Clear
  apart : Text.Apart (parameters.map Parameter.text)

instance (parameters : List Parameter) : Decidable (Parameters.Clear parameters) :=
  decidable_of_iff' (_ ∧ _) ⟨fun h => ⟨h.each, h.apart⟩, fun h => ⟨h.1, h.2⟩⟩

/-- What the declaration of a mixin begins with. -/
def Spelling.mixinSign : Spelling → Text
  | .keyword => "@mixin".toList
  | .sigil => ['=']

namespace MixinClause

theorem upToLastParen_eq {tail : Text} (h : ')' ∉ tail) (t : Text) :
    upToLastParen (t ++ ')' :: tail) = t := by
  have hdrop : (t ++ ')' :: tail).reverse.dropWhile (· ≠ ')') = ')' :: t.reverse := by
    rw [List.reverse_append, List.reverse_cons, List.append_assoc,
      List.dropWhile_append_of_pos fun c hc => ?_]
    · simp
    · simpa using fun heq : c = ')' => h (heq ▸ List.mem_reverse.1 hc)
  rw [upToLastParen, hdrop]
  exact List.reverse_reverse t

/-- The name of a mixin is bare, and no list begins in it. -/
theorem name_ofLine (line : Text) :
    (ofLine line).name.trim = (ofLine line).name ∧ '(' ∉ (ofLine line).name := by
  unfold ofLine
  dsimp only
  split
  · refine ⟨Line.trim_trim _, fun hmem => ?_⟩
    have hname := List.mem_takeWhile_imp (Text.mem_of_mem_trim hmem)
    simp at hname
  · rename_i hnone
    refine ⟨Line.trim_trim _, fun hmem => ?_⟩
    have hall := List.dropWhile_eq_nil_iff.1 hnone '(' (Text.mem_of_mem_trim hmem)
    simp at hall

/-- The list of arguments behind the name of a mixin. -/
def list (arguments : List Text) : Text :=
  if arguments.isEmpty then [] else '(' :: List.intercalate [',', ' '] arguments ++ [')']

/-- The list of a mixin stands between its first and its last parenthesis. -/
theorem ofLine_listed {line text before inner tail : Text} {spelling : Spelling} (length : Nat)
    (hstart : line.trimStart = text)
    (hspelled : (if text.startsWith "@mixin".toList then ((.keyword, 6) : Spelling × Nat)
      else (.sigil, 1)) = (spelling, length))
    (hrest : text.drop length = before ++ '(' :: (inner ++ ')' :: tail)) (hparen : '(' ∉ before)
    (htail : ')' ∉ tail) :
    let column := line.length - text.length + length + before.length + 1
    ofLine line = ⟨spelling, before.trim, splitArguments [] column 0 .outside column inner⟩ := by
  have hplain : ∀ c ∈ before, decide (c ≠ '(') = true := fun c hc =>
    decide_eq_true fun heq => hparen (heq ▸ hc)
  have hclose : Text.trimEnd (')' :: tail) = ')' :: tail.trimEnd := Text.trimEnd_cons (by decide) tail
  have hend : Text.trimEnd (before ++ '(' :: (inner ++ ')' :: tail)) =
      before ++ '(' :: (inner ++ ')' :: tail.trimEnd) := by
    have hjoin : ∀ t : Text, before ++ '(' :: (inner ++ t) = (before ++ '(' :: inner) ++ t := by simp
    rw [hjoin, Text.trimEnd_append (hclose ▸ List.cons_ne_nil _ _), hclose, hjoin]
  have htake : (before ++ '(' :: (inner ++ ')' :: tail.trimEnd)).takeWhile (· ≠ '(') = before := by
    rw [List.takeWhile_append_of_pos hplain]
    simp
  have hdrop : (before ++ '(' :: (inner ++ ')' :: tail.trimEnd)).dropWhile (· ≠ '(') =
      '(' :: (inner ++ ')' :: tail.trimEnd) := by
    rw [List.dropWhile_append_of_pos hplain]
    simp
  have htail' : ')' ∉ tail.trimEnd := fun hmem => htail (Text.mem_of_mem_trimEnd hmem)
  simp only [ofLine, hstart, hspelled, hrest, hend, htake, hdrop, upToLastParen_eq htail']

/-- The clause of a line with a list; what stands behind the list has no part in it. -/
theorem ofLine_signed {pre name tail : Text} (spelling : Spelling) (hpre : Blanks pre)
    (hparen : '(' ∉ name) (inner : Text) (htail : ')' ∉ tail) :
    let column := pre.length + spelling.mixinSign.length + name.length + 1
    ofLine (pre ++ (spelling.mixinSign ++ (name ++ '(' :: (inner ++ ')' :: tail)))) =
      ⟨spelling, name.trim, splitArguments [] column 0 .outside column inner⟩ := by
  intro column
  generalize hlist : name ++ '(' :: (inner ++ ')' :: tail) = list
  have hlength : (pre ++ (spelling.mixinSign ++ list)).length - (spelling.mixinSign ++ list).length =
      pre.length := by simp
  have hstart : (pre ++ (spelling.mixinSign ++ list)).trimStart = spelling.mixinSign ++ list := by
    rw [Text.trimStart_blanks hpre]
    cases spelling <;> rfl
  have hspelled : (if (spelling.mixinSign ++ list).startsWith "@mixin".toList then
      ((.keyword, 6) : Spelling × Nat) else (.sigil, 1)) = (spelling, spelling.mixinSign.length) := by
    cases spelling <;> rfl
  have hclause := ofLine_listed _ hstart hspelled (by cases spelling <;> exact hlist.symm) hparen htail
  rwa [hlength] at hclause

/-- A name and a list of arguments are read back. -/
theorem ofLine_written (pre : Text) {text name : Text} {spelling : Spelling} {length : Nat}
    {arguments : List Text} (hstart : text.trimStart = text)
    (hspelled : (if text.startsWith "@mixin".toList then ((.keyword, 6) : Spelling × Nat)
      else (.sigil, 1)) = (spelling, length))
    (hrest : text.drop length = pre ++ name ++ list arguments) (hpre : Blanks pre)
    (hname : name.trim = name) (hparen : '(' ∉ name) (hapart : Text.Apart arguments)
    (hbare : ∀ t ∈ arguments, Text.Bare t) :
    (ofLine text).spelling = spelling ∧ (ofLine text).name = name ∧
      (ofLine text).parameters.map Prod.fst = arguments := by
  have hplain : '(' ∉ pre ++ name := by
    intro hc
    rcases List.mem_append.1 hc with hc | hc
    · exact absurd (hpre _ hc) (by decide)
    · exact hparen hc
  have htrim : Text.trim (pre ++ name) = name := (Text.trim_blanks hpre name).trans hname
  cases arguments with
  | nil =>
    have hnone : (Text.trimEnd (pre ++ name)).dropWhile (· ≠ '(') = [] :=
      List.dropWhile_eq_nil_iff.2 fun c hc =>
        decide_eq_true fun heq => hplain (heq ▸ Text.mem_of_mem_trimEnd hc)
    simp only [list, List.isEmpty_nil, if_true, List.append_nil] at hrest
    simp only [ofLine, hstart, hspelled, hrest, hnone, Line.trim_trimEnd, htrim]
    exact ⟨trivial, trivial, rfl⟩
  | cons t rest =>
    rw [ofLine_listed _ hstart hspelled hrest hplain List.not_mem_nil]
    exact ⟨rfl, htrim, splitArguments_intercalate hapart hbare _ _⟩

theorem mem_of_mem_name {line : Text} {c : Char} (h : c ∈ (ofLine line).name) : c ∈ line := by
  have hmem : ∀ n : Nat, c ∈ Text.trimEnd (line.trimStart.drop n) → c ∈ line := fun n h =>
    List.dropWhile_subset isWhite (List.mem_of_mem_drop (Text.mem_of_mem_trimEnd h))
  unfold ofLine at h
  dsimp only at h
  split at h
  · exact hmem _ (List.takeWhile_subset _ (Text.mem_of_mem_trim h))
  · exact hmem _ (Text.mem_of_mem_trim h)

theorem mem_of_mem_parameter {line : Text} {piece : Text × Nat} {c : Char}
    (hpiece : piece ∈ (ofLine line).parameters) (h : c ∈ piece.1) : c ∈ line := by
  obtain ⟨before, after, hline, -⟩ := (pieces_parameters line).stands piece hpiece
  rw [hline]
  simp [h]

theorem getLast?_parameter {line : Text} {piece : Text × Nat}
    (h : piece ∈ (ofLine line).parameters) : ∀ c ∈ piece.1.getLast?, isWhite c = false := by
  unfold ofLine at h
  dsimp only at h
  split at h
  · exact getLast?_of_mem_splitArguments h
  · cases h

end MixinClause

/-- How a mixin is declared. -/
def Spelling.mixinText : Spelling → Text
  | .keyword => "@mixin ".toList
  | .sigil => ['=']

theorem Header.text_eq (spelling : Spelling) (name : Text) (parameters : List Parameter) :
    (Header.mixin spelling name parameters).text =
      spelling.mixinText ++ name ++ MixinClause.list (parameters.map Parameter.text) := by
  unfold Header.text MixinClause.list
  rw [List.isEmpty_map]
  cases spelling <;> rfl

/-- The spelling, the name and the arguments of a mixin are read back. -/
theorem MixinClause.ofLine_text {text name : Text} {spelling : Spelling} {arguments : List Text}
    (htext : text = spelling.mixinText ++ name ++ list arguments) (hname : name.trim = name)
    (hparen : '(' ∉ name) (hapart : Text.Apart arguments) (hbare : ∀ t ∈ arguments, Text.Bare t) :
    (ofLine text).spelling = spelling ∧ (ofLine text).name = name ∧
      (ofLine text).parameters.map Prod.fst = arguments := by
  subst htext
  cases spelling with
  | keyword =>
    exact ofLine_written [' '] rfl rfl rfl (by simp [Blanks, isBlank]) hname hparen hapart hbare
  | sigil => exact ofLine_written [] rfl rfl rfl (by simp [Blanks]) hname hparen hapart hbare

theorem MixinClause.feed_list {arguments : List Text} (h : ∀ t ∈ arguments, '\n' ∉ t) :
    '\n' ∉ list arguments := by
  have hjoined : '\n' ∉ List.intercalate [',', ' '] arguments := by
    induction arguments with
    | nil => exact List.not_mem_nil
    | cons t rest ih =>
      have ht := h t (List.mem_cons_self ..)
      have hrest := ih fun t ht => h t (List.mem_cons_of_mem _ ht)
      cases rest with
      | nil => rwa [List.intercalate_singleton]
      | cons next rest =>
        rw [List.intercalate_cons_cons]
        simp [ht, hrest]
  unfold list
  split
  · exact List.not_mem_nil
  · simp [hjoined]

namespace Line

variable {level : Nat} {line : Text}

theorem kind_mixin (spelling : Spelling) (t : Text) :
    kindOutsideComment (spelling.mixinText ++ t) = .mixin := by
  cases spelling with
  | keyword =>
    obtain ⟨hblank, -, -⟩ := kind_of_head (c := '@') (by decide) (by decide) ("mixin ".toList ++ t)
    unfold kindOutsideComment
    rw [show isBlankLine (Spelling.mixinText .keyword ++ t) = false from hblank]
    rfl
  | sigil =>
    obtain ⟨hblank, -, -⟩ := kind_of_head (c := '=') (by decide) (by decide) t
    unfold kindOutsideComment
    rw [show isBlankLine (Spelling.mixinText .sigil ++ t) = false from hblank]
    rfl

/-- A mixin is read back. -/
theorem tells_mixin (hfeed : '\n' ∉ line) {parameters : List Parameter}
    (hparameters : parameters =
      ((MixinClause.ofLine line).parameters.map Prod.fst).map Parameter.parts)
    (hclear : Parameters.Clear parameters) :
    let header := Header.mixin (MixinClause.ofLine line).spelling (MixinClause.ofLine line).name
      parameters
    Tells level header.text (.block 0 level header []) := by
  intro header
  obtain ⟨hname, hparen⟩ := MixinClause.name_ofLine line
  have htext := Header.text_eq (MixinClause.ofLine line).spelling (MixinClause.ofLine line).name
    parameters
  have hwritten : ∀ t ∈ parameters.map Parameter.text, Text.Bare t ∧ '\n' ∉ t := by
    intro t ht
    obtain ⟨p, hp, rfl⟩ := List.mem_map.1 ht
    rw [hparameters, List.map_map] at hp
    obtain ⟨piece, hpiece, rfl⟩ := List.mem_map.1 hp
    exact ⟨Parameter.bare_text (MixinClause.getLast?_parameter hpiece),
      Parameter.feed_text fun hmem => hfeed (MixinClause.mem_of_mem_parameter hpiece hmem)⟩
  constructor
  · rw [htext]
    intro hmem
    simp only [List.mem_append] at hmem
    rcases hmem with (hkey | hown) | hlist
    · revert hkey
      cases (MixinClause.ofLine line).spelling <;> decide
    · exact hfeed (MixinClause.mem_of_mem_name hown)
    · exact MixinClause.feed_list (fun t ht => (hwritten t ht).2) hlist
  · rw [htext]
    intro hlast
    by_cases hnone : (parameters.map Parameter.text).isEmpty = true
    · rw [MixinClause.list, if_pos hnone, List.append_nil] at hlast
      by_cases hne : (MixinClause.ofLine line).name = []
      · rw [hne, List.append_nil] at hlast
        revert hlast
        cases (MixinClause.ofLine line).spelling <;> decide
      · rw [List.getLast?_append_of_ne_nil _ hne, ← hname] at hlast
        exact getLast?_trim_ne _ hlast
    · rw [MixinClause.list, if_neg hnone, ← List.append_assoc, List.getLast?_concat] at hlast
      cases hlast
  · rw [htext]
    cases (MixinClause.ofLine line).spelling
    · exact ⟨'@', _, rfl, by decide⟩
    · exact ⟨'=', _, rfl, by decide⟩
  · have hkind : kindOutsideComment header.text = .mixin := by
      rw [htext, List.append_assoc]
      exact kind_mixin _ _
    obtain ⟨hspelling, hname', hpieces⟩ := MixinClause.ofLine_text (show header.text = _ from htext)
      hname hparen hclear.apart fun t ht => (hwritten t ht).1
    have hparts : (parameters.map Parameter.text).map Parameter.parts = parameters := by
      rw [List.map_map]
      conv_rhs => rw [← List.map_id parameters]
      refine List.map_congr_left fun p hp => ?_
      have hclearOne := hclear.each p hp
      rw [hparameters] at hp
      obtain ⟨written, -, rfl⟩ := List.mem_map.1 hp
      exact Parameter.parts_text hclearOne
    rw [hkind]
    simp only [nodes, hspelling, hname', hpieces, hparts]
    rfl

end Line

end IndentedSass
