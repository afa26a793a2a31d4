/-
  Scanning a line outside of its strings.

  * `splitComment` cuts off a trailing `//` comment that is not inside a string
    or parentheses (`splitComment_append`: nothing is lost);
  * `splitDeclaration?` cuts a line at its first colon that is neither quoted
    nor escaped;
  * `splitBlockOpen?` cuts a line at the first brace that opens a block, so not
    at the brace of an interpolation `#{`;
  * `isBraceSyntax` recognizes the lines that are written with braces and
    semicolons.
-/
import IndentedSass.Line.Head
import IndentedSass.Line.Quote

namespace IndentedSass.Line

/-! ## Trailing comments -/

/-- The depth of parentheses after the character `c`, which counts only outside
    of strings. -/
def parenDepth (q : Quote) (depth : Nat) (c : Char) : Nat :=
  if !q.isOutside then depth
  else if c = '(' then depth + 1
  else if c = ')' then depth - 1
  else depth

/-- `splitComment` from the middle of a line. -/
def splitCommentFrom (q : Quote) (depth : Nat) : Text → Text × Text
  | [] => ([], [])
  | c :: cs =>
    if q.isOutside && depth == 0 && c == '/' && cs.head? == some '/' then ([], c :: cs)
    else
      let (code, comment) := splitCommentFrom (q.step .adjacent c) (parenDepth q depth c) cs
      (c :: code, comment)

/-- The code of a line and the `//` comment that ends it. -/
def splitComment (line : Text) : Text × Text := splitCommentFrom .outside 0 line

/-- A line without the comment that ends it. -/
def code (line : Text) : Text := (splitComment line).1

theorem splitCommentFrom_append (q : Quote) (depth : Nat) (t : Text) :
    (splitCommentFrom q depth t).1 ++ (splitCommentFrom q depth t).2 = t := by
  induction t generalizing q depth with
  | nil => rfl
  | cons c cs ih =>
    simp only [splitCommentFrom]
    split
    · rfl
    · simp [ih]

theorem splitComment_append (line : Text) : (splitComment line).1 ++ (splitComment line).2 = line :=
  splitCommentFrom_append .outside 0 line

/-! ## Declarations -/

/-- A declaration, cut at its colon. -/
structure Declaration where
  /-- What stands before the colon, trimmed. -/
  name : Text
  /-- What follows the colon. -/
  value : Text
  /-- The column of the first character after the colon. -/
  column : Nat
  deriving DecidableEq, Repr

/-- The parts of a text before and after its first colon that is neither quoted
    nor escaped; `escaped` when a backslash stands right before the text. -/
def splitColon? (q : Quote) (escaped : Bool) : Text → Option (Text × Text)
  | [] => none
  | c :: cs =>
    if q.isOutside && c == ':' && !escaped then some ([], cs)
    else (splitColon? (q.step .adjacent c) (c == '\\') cs).map fun (a, b) => (c :: a, b)

/-- The declaration of a line or a mixin parameter. -/
def splitDeclaration? (t : Text) : Option Declaration :=
  (splitColon? .outside false t).map fun (before, value) =>
    ⟨before.trim, value, before.length + 1⟩

theorem splitColon?_eq_some {q : Quote} {e : Bool} {t a b : Text}
    (h : splitColon? q e t = some (a, b)) : t = a ++ ':' :: b := by
  induction t generalizing q e a b with
  | nil => simp [splitColon?] at h
  | cons c cs ih =>
    simp only [splitColon?] at h
    split at h
    · rename_i hc
      simp only [Bool.and_eq_true, beq_iff_eq] at hc
      simp only [Option.some.injEq, Prod.mk.injEq] at h
      obtain ⟨rfl, rfl⟩ := h
      simp [hc.1.2]
    · obtain ⟨⟨a', b'⟩, h', he⟩ := Option.map_eq_some_iff.1 h
      simp only [Prod.mk.injEq] at he
      obtain ⟨rfl, rfl⟩ := he
      simp [ih h']

/-! ## Braces -/

/-- The parts of a text before and after the first brace that opens a block;
    `hash` when a `#` stands right before the text. -/
def splitBlockOpenFrom? (q : Quote) (hash : Bool) : Text → Option (Text × Text)
  | [] => none
  | c :: cs =>
    if q.isOutside && c == '\x7b' && !hash then some ([], cs)
    else (splitBlockOpenFrom? (q.step .adjacent c) (c == '#') cs).map fun (a, b) => (c :: a, b)

/-- The parts of a text before and after the first brace that opens a block. -/
def splitBlockOpen? (t : Text) : Option (Text × Text) := splitBlockOpenFrom? .outside false t

/-- The byte offset of the first brace that opens a block. -/
def blockOpen? (t : Text) : Option Nat := (splitBlockOpen? t).map fun (before, _) => before.size

/-- How often `#` and an opening brace stand side by side. -/
def countInterpolations : Text → Nat
  | '#' :: '\x7b' :: cs => countInterpolations cs + 1
  | _ :: cs => countInterpolations cs
  | [] => 0

/-- Every brace of the text belongs to an interpolation. -/
def hasOnlyInterpolations (t : Text) : Bool :=
  t.count '\x7b' == countInterpolations t && t.count '\x7b' == t.count '\x7d'

/-- Whether a line is written in brace syntax: its code ends in a semicolon or
    a brace that is no interpolation's, or (`afterBraces`, after another such
    line) it continues a list of class or id selectors with a comma. -/
def isBraceSyntax (line : Text) (afterBraces : Bool) : Bool :=
  let code := (code line).trimEnd
  (afterBraces && code.getLast? == some ',' && isClassOrId code) ||
    match code.getLast? with
    | some ';' | some '\x7b' => true
    | some '\x7d' => !hasOnlyInterpolations code
    | _ => false

end IndentedSass.Line
