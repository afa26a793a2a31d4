/-
  Quoted strings inside a line.

  Several scans of a line skip what stands inside quotation marks.  They share
  the state of `Quote`: outside of any string, or inside one.  They differ in
  which backslashes keep a mark from closing a string (`Escape`).

  * `Quote.step` reads one character, `Quote.run` a whole text
    (`Quote.run_append`);
  * a text is `Closed` when the scan is outside of any string at its end.
-/
import IndentedSass.Text.Basic

namespace IndentedSass

/-- What keeps a quotation mark from closing a string. -/
inductive Escape where
  /-- A backslash right before it. -/
  | adjacent
  /-- An odd number of backslashes right before it. -/
  | paired
  /-- Nothing. -/
  | never
  deriving DecidableEq, Repr

/-- Where a scan stands with respect to quoted strings. -/
inductive Quote where
  /-- Outside of any string. -/
  | outside
  /-- Inside a string opened by `mark`; `escaped` when a mark read next would
      not close it. -/
  | inside (mark : Char) (escaped : Bool)
  deriving DecidableEq, Repr

/-- The characters that open a string. -/
def isQuoteMark (c : Char) : Bool := c == '"' || c == '\''

namespace Escape

/-- Whether the character `c`, read inside a string, guards the character after
    it; `escaped` tells whether `c` itself is guarded. -/
def guards : Escape → (escaped : Bool) → (c : Char) → Bool
  | adjacent, _, c => c == '\\'
  | paired, escaped, c => c == '\\' && !escaped
  | never, _, _ => false

end Escape

namespace Quote

/-- Whether the scan is outside of any string. -/
def isOutside : Quote → Bool
  | outside => true
  | inside _ _ => false

/-- The state after one more character. -/
def step (rule : Escape) : Quote → Char → Quote
  | outside, c => if isQuoteMark c then inside c false else outside
  | inside mark escaped, c =>
    if c == mark && !escaped then outside else inside mark (rule.guards escaped c)

/-- The state after a text. -/
def run (rule : Escape) (q : Quote) (t : Text) : Quote := t.foldl (step rule) q

theorem run_append (rule : Escape) (q : Quote) (s t : Text) :
    run rule q (s ++ t) = run rule (run rule q s) t := by
  simp [run]

end Quote

/-- Every string opened in the text is closed in it. -/
def Text.Closed (rule : Escape) (t : Text) : Prop := Quote.run rule .outside t = .outside

instance (rule : Escape) (t : Text) : Decidable (t.Closed rule) := by
  unfold Text.Closed; infer_instance

end IndentedSass
