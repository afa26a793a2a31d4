/-
  Strings in a text.

  The scans of a line differ in which backslashes keep a mark from closing a string.  Without
  backslashes they agree (`Quote.run_eq_of_not_mem`).

  * `Quote.Proper` and `Quote.Unguarded` are what holds of the states of a scan, of all and of
    those without backslashes;
  * `Quote.inside_string`: what a scan does with a string, from what it does with a character;
  * `Text.Closed.run_append`: behind a text whose strings are closed a scan starts again;
  * `Text.closed_trim_iff`: trimming a text opens and closes no string.
-/
import Mathlib
import IndentedSass.Line.Quote
import IndentedSass.Proofs.Text.Trailing

namespace IndentedSass

theorem isQuoteMark_iff {c : Char} : isQuoteMark c = true ↔ c = '"' ∨ c = '\'' := by
  simp [isQuoteMark]

theorem isQuoteMark_of_isWhite {c : Char} (h : isWhite c = true) : isQuoteMark c = false :=
  false_of_isWhite (by decide) h

namespace Quote

variable {rule rule' : Escape} {q : Quote} {c : Char} {t ws : Text}

theorem run_cons (rule : Escape) (q : Quote) (c : Char) (t : Text) :
    run rule q (c :: t) = run rule (q.step rule c) t := rfl

theorem isOutside_iff : q.isOutside = true ↔ q = .outside := by
  cases q <;> simp [isOutside]

theorem not_inside_iff : ¬(!q.isOutside) = true ↔ q = .outside := by
  cases q <;> simp [isOutside]

theorem step_outside (rule : Escape) (h : isQuoteMark c = false) :
    step rule .outside c = .outside := by
  rw [step, h, if_neg Bool.false_ne_true]

theorem step_open (rule : Escape) (h : isQuoteMark c = true) :
    step rule .outside c = .inside c false := by
  rw [step, if_pos h]

theorem step_close (rule : Escape) (mark : Char) :
    step rule (.inside mark false) mark = .outside := by
  rw [step, beq_self_eq_true]
  rfl

/-- A string goes on with a character that is neither its mark nor a backslash. -/
theorem step_inside (rule : Escape) {mark : Char} (hmark : c ≠ mark) (hc : c ≠ '\\') :
    step rule (.inside mark false) c = .inside mark false := by
  have hguards : rule.guards false c = false := by
    cases rule <;> simp [Escape.guards, hc]
  rw [step, beq_eq_false_iff_ne.2 hmark, hguards]
  rfl

/-- What holds outside of strings holds at the start of a string without backslashes, when it
    passes from each character of a string to the one before. -/
theorem inside_string (rule : Escape) {P : Quote → Text → Prop} {mark : Char} (hend : P .outside [])
    (hback : ∀ escaped c t, P (step rule (.inside mark escaped) c) t →
      P (.inside mark escaped) (c :: t))
    (hmark : mark ∉ t) (hplain : '\\' ∉ t) : P (.inside mark false) (t ++ [mark]) := by
  induction t with
  | nil =>
    refine hback false mark [] ?_
    rw [step_close]
    exact hend
  | cons c t ih =>
    rw [List.mem_cons, not_or] at hmark hplain
    refine hback false c _ ?_
    rw [step_inside rule (Ne.symm hmark.1) (Ne.symm hplain.1)]
    exact ih hmark.2 hplain.2

theorem run_plain (rule : Escape) (h : ∀ c ∈ t, isQuoteMark c = false) :
    run rule .outside t = .outside := by
  induction t with
  | nil => rfl
  | cons c t ih =>
    rw [run_cons, step_outside rule (h c (List.mem_cons_self ..))]
    exact ih fun d hd => h d (List.mem_cons_of_mem c hd)

/-! ## The states of a scan -/

/-- Strings are opened by quotation marks. -/
def Proper : Quote → Prop
  | outside => True
  | inside mark _ => isQuoteMark mark = true

theorem Proper.step (h : q.Proper) : (q.step rule c).Proper := by
  cases q with
  | outside =>
    rw [Quote.step]
    split
    · assumption
    · trivial
  | inside mark escaped =>
    rw [Quote.step]
    split
    · trivial
    · exact h

theorem Proper.run (h : q.Proper) : (run rule q t).Proper := by
  induction t generalizing q with
  | nil => exact h
  | cons c t ih => exact ih h.step

theorem proper_run (rule : Escape) (t : Text) : (Quote.run rule .outside t).Proper :=
  Proper.run (q := .outside) trivial

/-- White space neither opens nor closes a string. -/
theorem run_white (hq : q.Proper) (hw : White ws) : run rule q ws = .outside ↔ q = .outside := by
  induction ws generalizing q with
  | nil => rfl
  | cons c ws ih =>
    have hc := isQuoteMark_of_isWhite (hw c (List.mem_cons_self ..))
    rw [run_cons, ih hq.step fun d hd => hw d (List.mem_cons_of_mem c hd)]
    cases q with
    | outside => rw [step_outside rule hc]
    | inside mark escaped =>
      have hne : (c == mark) = false := by
        refine beq_eq_false_iff_ne.2 ?_
        rintro rfl
        rw [show isQuoteMark c = true from hq] at hc
        cases hc
      rw [Quote.step, hne, Bool.false_and, if_neg Bool.false_ne_true]
      exact ⟨nofun, nofun⟩

/-- No backslash guards the next character. -/
def Unguarded : Quote → Prop
  | outside => True
  | inside _ escaped => escaped = false

/-- Where there are no backslashes, all scans take the same step. -/
theorem Unguarded.step_eq (h : q.Unguarded) (hc : c ≠ '\\') (rule rule' : Escape) :
    q.step rule c = q.step rule' c ∧ (q.step rule c).Unguarded := by
  cases q with
  | outside =>
    refine ⟨rfl, ?_⟩
    rw [step]
    split
    · rfl
    · trivial
  | inside mark escaped =>
    have hguards : ∀ rule : Escape, rule.guards escaped c = false := by
      intro rule
      cases rule <;> simp [Escape.guards, hc]
    rw [step, step, hguards, hguards]
    refine ⟨rfl, ?_⟩
    split
    · trivial
    · rfl

theorem Unguarded.run_eq (h : q.Unguarded) (ht : '\\' ∉ t) (rule rule' : Escape) :
    run rule q t = run rule' q t ∧ (run rule q t).Unguarded := by
  induction t generalizing q with
  | nil => exact ⟨rfl, h⟩
  | cons c t ih =>
    rw [List.mem_cons, not_or] at ht
    obtain ⟨heq, hnext⟩ := h.step_eq (Ne.symm ht.1) rule rule'
    rw [run_cons, run_cons, ← heq]
    exact ih hnext ht.2

theorem run_eq_of_not_mem (ht : '\\' ∉ t) (rule rule' : Escape) :
    run rule .outside t = run rule' .outside t :=
  (Unguarded.run_eq (q := .outside) trivial ht rule rule').1

end Quote

/-! ## Closed texts -/

namespace Text

variable {rule : Escape} {s t : Text}

theorem closed_nil (rule : Escape) : Closed rule [] := rfl

theorem closed_of_plain (h : ∀ c ∈ t, isQuoteMark c = false) : t.Closed rule :=
  Quote.run_plain rule h

/-- Behind a closed text a scan starts again. -/
theorem Closed.run_append (h : s.Closed rule) (t : Text) :
    Quote.run rule .outside (s ++ t) = Quote.run rule .outside t := by
  rw [Quote.run_append, show Quote.run rule .outside s = .outside from h]

theorem Closed.append_iff (h : s.Closed rule) : (s ++ t).Closed rule ↔ t.Closed rule := by
  rw [Closed, h.run_append, Closed]

theorem closed_white {ws : Text} (hw : White ws) : ws.Closed rule :=
  closed_of_plain fun c hc => isQuoteMark_of_isWhite (hw c hc)

theorem closed_append_white {ws : Text} (hw : White ws) :
    (t ++ ws).Closed rule ↔ t.Closed rule := by
  rw [Closed, Quote.run_append, Quote.run_white (Quote.proper_run rule t) hw, Closed]

theorem closed_trimEnd_iff : t.trimEnd.Closed rule ↔ t.Closed rule := by
  obtain ⟨ws, hw, hsplit⟩ := exists_white t
  conv_rhs => rw [hsplit]
  rw [closed_append_white hw]

theorem closed_trimStart_iff : t.trimStart.Closed rule ↔ t.Closed rule := by
  have hwhite : White (t.takeWhile isWhite) := fun c hc => List.mem_takeWhile_imp hc
  conv_rhs => rw [← t.takeWhile_append_dropWhile (p := isWhite)]
  rw [(closed_white hwhite).append_iff, trimStart]

theorem closed_trim_iff : t.trim.Closed rule ↔ t.Closed rule := by
  rw [trim, closed_trimEnd_iff, closed_trimStart_iff]

theorem closed_body_iff : t.body.Closed rule ↔ t.Closed rule := by
  have hwhite : White t.blanks := fun c hc => isWhite_of_isBlank (List.mem_takeWhile_imp hc)
  conv_rhs => rw [← t.blanks_append_body]
  rw [(closed_white hwhite).append_iff]

theorem Closed.of_not_mem (h : t.Closed rule) (ht : '\\' ∉ t) (rule' : Escape) :
    t.Closed rule' := by
  rw [Closed, Quote.run_eq_of_not_mem ht rule' rule]
  exact h

end Text

end IndentedSass
