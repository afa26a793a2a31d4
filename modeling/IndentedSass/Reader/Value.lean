/-
  Reading the value of a declaration.

  A value is read character by character.  Blanks end a word; `name(` opens a
  call and `#{` an interpolation; `)` and `}` close the innermost open one, and
  are plain text when none is open.  A quoted string is part of a word,
  whatever it holds.  What is still open at the end is closed there.

  * `readValue` gives the parts of a value and the references in it that are
    declared nowhere;
  * `reference?` recognizes the words that are references;
  * `ValueState.step` reads one character and looks at the next one.
-/
import IndentedSass.Diagnostic
import IndentedSass.Line.Quote
import IndentedSass.Text.Word
import IndentedSass.Tree.Value

namespace IndentedSass

/-- Finds the declaration of a variable by its name and qualifier, for a
    reference at a nesting level. -/
abbrev Lookup := (name : Text) → (qualifier : Option Text) → (level : Nat) → Option Location

/-- A lookup for every column at which a reference can begin.  What is found may
    change from one reference to the next. -/
abbrev Lookups := (column : Nat) → Lookup

/-- A lookup that finds the same for every reference. -/
instance : Coe Lookup Lookups := ⟨fun lookup _ => lookup⟩

/-- Where a value stands. -/
structure ValuePlace where
  /-- The line, from zero. -/
  line : Nat
  /-- The column of its first character. -/
  column : Nat
  /-- The nesting level of its declaration. -/
  level : Nat
  deriving DecidableEq, Repr

/-! ## References -/

/-- A name that starts with an ASCII letter or an underscore, and what follows
    it. -/
def identifier? : Text → Option (Text × Text)
  | [] => none
  | c :: cs =>
    if c.isAlpha || c == '_' then some (c :: cs.takeWhile isNameChar, cs.dropWhile isNameChar)
    else none

/-- The name of a variable, with its `$`, when nothing or only a comma follows
    it. -/
def variableWord? : Text → Option Text
  | '$' :: cs =>
    match identifier? cs with
    | some (name, []) | some (name, [',']) => some ('$' :: name)
    | _ => none
  | _ => none

/-- The qualifier and the name of a word that is a reference: `$name` or
    `qualifier.$name`, perhaps with a comma behind it. -/
def reference? (word : Text) : Option (Option Text × Text) :=
  match variableWord? word with
  | some name => some (none, name)
  | none =>
    match identifier? word with
    | some (qualifier, '.' :: rest) => (variableWord? rest).map fun name => (some qualifier, name)
    | _ => none

/-! ## The state of a reading -/

/-- A compound that is still open. -/
structure OpenCompound where
  /-- What it is. -/
  form : Form
  /-- Whether it is joined to the part before it. -/
  joined : Bool
  /-- Its parts so far. -/
  body : List Value
  deriving Repr

/-- The state of a reading. -/
structure ValueState where
  /-- The parts read so far, outside of the open compounds. -/
  body : List Value := []
  /-- The open compounds, the innermost first. -/
  opened : List OpenCompound := []
  /-- The characters of the current word. -/
  word : Text := []
  /-- Whether there was a blank since the last part. -/
  spaced : Bool := false
  /-- Where the reading stands with respect to strings. -/
  quote : Quote := .outside
  /-- Whether the next character is the brace of an interpolation that is
      already open. -/
  atBrace : Bool := false
  /-- The characters read so far. -/
  count : Nat := 0
  /-- The references declared nowhere. -/
  diagnostics : List Diagnostic := []
  deriving Repr

namespace ValueState

/-- The parts that the next part would follow. -/
def innermost (st : ValueState) : List Value :=
  match st.opened with
  | [] => st.body
  | o :: _ => o.body

/-- Whether a part that starts here is joined to the one before it.  The first
    part of a body never is. -/
def joins (st : ValueState) : Bool := !st.spaced && !st.innermost.isEmpty

/-- Adds a part. -/
def push (st : ValueState) (v : Value) : ValueState :=
  match st.opened with
  | [] => { st with body := st.body ++ [v], spaced := false }
  | o :: os => { st with opened := { o with body := o.body ++ [v] } :: os, spaced := false }

/-- Opens a compound. -/
def enter (st : ValueState) (form : Form) : ValueState :=
  { st with opened := ⟨form, st.joins, []⟩ :: st.opened }

/-- Closes the innermost open compound. -/
def close (st : ValueState) : ValueState :=
  match st.opened with
  | [] => st
  | o :: os => { st with opened := os }.push (.compound o.form o.body o.joined)

/-- Ends the current word. -/
def flush (lookup : Lookups) (place : ValuePlace) (st : ValueState) : ValueState :=
  if st.word.isEmpty then st
  else
    let joined := st.joins
    match reference? st.word with
    | none => { st with word := [] }.push (.literal st.word joined)
    | some (qualifier, name) =>
      let start := place.column + st.count - st.word.length
      let target := lookup start name qualifier place.level
      let missing : List Diagnostic :=
        if target.isNone then
          [⟨.variableNotFound name, .within place.line start (start + st.word.length)⟩]
        else []
      { st with word := [], diagnostics := st.diagnostics ++ missing }.push
        (.reference ⟨st.word, name, qualifier, target⟩ joined)

/-- Adds a character to the current word. -/
def keep (st : ValueState) (c : Char) : ValueState :=
  { st with word := st.word ++ [c], quote := st.quote.step .paired c }

/-- What the character `c` does, when `next` follows it. -/
def act (lookup : Lookups) (place : ValuePlace) (st : ValueState) (c : Char) (next : Option Char) :
    ValueState :=
  if st.atBrace then { st with atBrace := false }
  else if !st.quote.isOutside then st.keep c
  else if isBlank c then { st.flush lookup place with spaced := true }
  else if c = '#' ∧ next = some '\x7b' then
    { (st.flush lookup place).enter .interpolation with atBrace := true }
  else if c = '(' then { st with word := [] }.enter (.call st.word)
  else if c = ')' ∨ c = '\x7d' then
    if st.opened.isEmpty then st.keep c else (st.flush lookup place).close
  else st.keep c

/-- Reads the character `c`, when `next` follows it. -/
def step (lookup : Lookups) (place : ValuePlace) (st : ValueState) (c : Char) (next : Option Char) :
    ValueState :=
  let st := st.act lookup place c next
  { st with count := st.count + 1 }

/-- Reads a text. -/
def run (lookup : Lookups) (place : ValuePlace) : ValueState → Text → ValueState
  | st, [] => st
  | st, c :: cs => run lookup place (st.step lookup place c cs.head?) cs

/-- Ends the last word and closes what is open. -/
def finish (lookup : Lookups) (place : ValuePlace) (st : ValueState) : ValueState :=
  let st := st.flush lookup place
  st.opened.foldl (fun st _ => st.close) st

end ValueState

/-- The parts of a value, and the references in it that are declared nowhere. -/
def readValue (lookup : Lookups) (place : ValuePlace) (raw : Text) :
    List Value × List Diagnostic :=
  let st := (ValueState.run lookup place {} raw).finish lookup place
  (st.body, st.diagnostics)

end IndentedSass
