/-
  Converting brace syntax.

  A line written with braces and semicolons becomes lines of the indented
  syntax.  A rule on one line is cut into its header and its declarations, with
  the rules nested in it; a selector that starts with the selector of the rule
  before it is shortened to what is nested under that one.

  * `convertBraces` converts a line;
  * `stripBraces` removes braces and semicolons outside of strings,
    parentheses and interpolations;
  * `splitRule` cuts the inside of a rule into lines, each with its depth;
    `splitClose` finds where a nested rule ends (`splitClose_length`).
-/
import IndentedSass.Line.Scan

namespace IndentedSass

/-- A line of a rule, `depth` levels below its header. -/
structure RuleLine where
  /-- The levels below the header. -/
  depth : Nat
  /-- The line, without indentation. -/
  text : Text
  deriving DecidableEq, Repr

/-- What a line of brace syntax becomes. -/
structure Converted where
  /-- The line itself, with the indentation it had. -/
  text : Text
  /-- The lines inside the rule, when it was written on one line. -/
  lines : List RuleLine
  /-- The selector that later selectors may repeat. -/
  lastSelector : Text
  /-- Whether the header is nested under the last selector, one level deeper. -/
  nested : Bool
  deriving DecidableEq, Repr

/-! ## Single lines -/

/-- `stripBraces` from the middle of a text; `hash` when a `#` stands right
    before it. -/
def stripBracesFrom (q : Quote) (hash : Bool) (interpolations parens : Nat) : Text → Text
  | [] => []
  | c :: cs =>
    let next (interpolations parens : Nat) : Text :=
      stripBracesFrom (q.step .adjacent c) (c == '#') interpolations parens cs
    if !q.isOutside then c :: next interpolations parens
    else if c = '\x7b' then
      if hash then c :: next (interpolations + 1) parens else next interpolations parens
    else if c = '\x7d' then
      if 0 < interpolations then c :: next (interpolations - 1) parens
      else next interpolations parens
    else if c = '(' then c :: next interpolations (parens + 1)
    else if c = ')' then c :: next interpolations (parens - 1)
    else if c = ';' ∧ parens = 0 then next interpolations parens
    else c :: next interpolations parens

/-- A text without its braces and semicolons, but for those in strings and
    interpolations, and the semicolons in parentheses. -/
def stripBraces (t : Text) : Text := stripBracesFrom .outside false 0 0 t

/-! ## Rules on one line -/

/-- The parts of a text before and after the brace that closes a block; all of
    it and nothing when the block is not closed. -/
def splitClose (q : Quote) (depth : Nat) : Text → Text × Text
  | [] => ([], [])
  | c :: cs =>
    let next (depth : Nat) : Text × Text :=
      let (inner, after) := splitClose (q.step .paired c) depth cs
      (c :: inner, after)
    if !q.isOutside then next depth
    else if c = '\x7b' then next (depth + 1)
    else if c = '\x7d' then if depth = 0 then ([], cs) else next (depth - 1)
    else next depth

theorem splitClose_length (q : Quote) (depth : Nat) (t : Text) :
    (splitClose q depth t).1.length + (splitClose q depth t).2.length ≤ t.length := by
  induction t generalizing q depth with
  | nil => simp [splitClose]
  | cons c cs ih =>
    have key (d : Nat) := ih (q.step .paired c) d
    simp only [splitClose]
    repeat' split
    · have := key depth; simp only [List.length_cons]; omega
    · have := key (depth + 1); simp only [List.length_cons]; omega
    · simp
    · have := key (depth - 1); simp only [List.length_cons]; omega
    · have := key depth; simp only [List.length_cons]; omega

/-- The state of cutting the inside of a rule. -/
structure RuleState where
  /-- The declaration or header so far. -/
  current : Text := []
  /-- Where the cut stands with respect to strings. -/
  quote : Quote := .outside
  /-- The depth of parentheses. -/
  parens : Nat := 0
  /-- The depth of interpolations. -/
  interpolations : Nat := 0
  deriving Repr

namespace RuleState

/-- Adds a character to the current declaration or header. -/
def keep (st : RuleState) (c : Char) : RuleState :=
  { st with current := st.current ++ [c], quote := st.quote.step .paired c }

/-- The line of the current declaration, unless it is empty. -/
def declaration (st : RuleState) (depth : Nat) : List RuleLine :=
  if st.current.trim.isEmpty then [] else [⟨depth, Line.spaceAfterColon st.current.trim⟩]

/-- The line of the current header, unless it is empty. -/
def header (st : RuleState) (depth : Nat) : List RuleLine :=
  if st.current.trim.isEmpty then [] else [⟨depth, st.current.trim⟩]

end RuleState

/-- The lines inside a rule: its declarations, and the headers and lines of the
    rules nested in it. -/
def splitRule (depth : Nat) (st : RuleState) (t : Text) : List RuleLine :=
  match t with
  | [] => st.declaration depth
  | c :: cs =>
    if !st.quote.isOutside then splitRule depth (st.keep c) cs
    else if c = '#' ∧ cs.head? = some '\x7b' then
      let opened := (st.keep c).keep '\x7b'
      splitRule depth { opened with interpolations := st.interpolations + 1 } (cs.drop 1)
    else if c = '\x7b' then
      st.header depth ++ splitRule (depth + 1) {} (splitClose .outside 0 cs).1 ++
        splitRule depth { st with current := [] } (splitClose .outside 0 cs).2
    else if c = '\x7d' then
      if 0 < st.interpolations then
        splitRule depth { st.keep c with interpolations := st.interpolations - 1 } cs
      else splitRule depth st cs
    else if c = '(' then splitRule depth { st.keep c with parens := st.parens + 1 } cs
    else if c = ')' then splitRule depth { st.keep c with parens := st.parens - 1 } cs
    else if c = ';' ∧ st.parens = 0 then
      st.declaration depth ++ splitRule depth { st with current := [] } cs
    else splitRule depth (st.keep c) cs
termination_by t.length
decreasing_by
  all_goals
    have hclose := splitClose_length .outside 0 cs
    simp only [List.length_drop, List.length_cons]
    omega

/-! ## Lines of any form -/

/-- A header that repeats the last selector, without it. -/
def unnest? (lastSelector header : Text) : Option Text :=
  if lastSelector.isEmpty then none
  else (Text.dropPrefix? (lastSelector ++ [' ']) header).map Text.trimStart

/-- The converted code of a line and the comment behind it, one space apart. -/
def joinComment (indent code comment : Text) : Text :=
  if comment.isEmpty then (if code.isEmpty then [] else indent ++ code)
  else if code.isEmpty then indent ++ comment
  else indent ++ code ++ ' ' :: comment

/-- Converts a line of brace syntax; `lastSelector` is the selector that it may
    repeat. -/
def convertBraces (line lastSelector : Text) : Converted :=
  let comment := (Line.splitComment line).2.trim
  let code := (Line.splitComment line).1.trimEnd
  match Line.splitBlockOpen? code.body with
  | none =>
    ⟨joinComment code.blanks (stripBraces code.body).trimEnd comment, [], lastSelector, false⟩
  | some (before, after) =>
    let lines := splitRule 1 {} after
    let header := before.trim
    match unnest? lastSelector header with
    | some rest => ⟨joinComment code.blanks rest comment, lines, lastSelector, true⟩
    | none => ⟨joinComment code.blanks header comment, lines, header, false⟩

end IndentedSass
