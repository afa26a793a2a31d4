/-
  The value of a declaration.

  A value is a list of parts: words, references to variables, and function
  calls or interpolations with parts of their own.  A part that was written
  right behind the one before it is joined to it.

  * `Value.render` writes a list of parts: one space before each part that is
    not joined;
  * `Value.references` lists the references of a value, at any depth.
-/
import IndentedSass.Uri

namespace IndentedSass

/-- Where a variable is declared. -/
structure Location where
  /-- The file. -/
  uri : Uri
  /-- The line, from zero. -/
  line : Nat
  deriving DecidableEq, Repr

/-- A reference to a variable: `$name` or `qualifier.$name`. -/
structure Reference where
  /-- The reference as written, a comma behind it included. -/
  text : Text
  /-- The name, with its `$`. -/
  name : Text
  /-- The module the variable is taken from. -/
  qualifier : Option Text
  /-- Where the variable is declared, when it is found. -/
  target : Option Location
  deriving DecidableEq, Repr

/-- What a compound part of a value is. -/
inductive Form where
  /-- `name(…)`; the name of plain parentheses is empty. -/
  | call (name : Text)
  /-- `#{…}` -/
  | interpolation
  deriving DecidableEq, Repr

namespace Form

/-- The text before the parts of a compound. -/
def opening : Form → Text
  | call name => name ++ ['(']
  | interpolation => ['#', '\x7b']

/-- The text behind the parts of a compound. -/
def closing : Form → Text
  | call _ => [')']
  | interpolation => ['\x7d']

end Form

/-- A part of a value. -/
inductive Value where
  /-- A word, kept as written. -/
  | literal (text : Text) (joined : Bool)
  /-- A reference to a variable. -/
  | reference (ref : Reference) (joined : Bool)
  /-- A call or an interpolation. -/
  | compound (form : Form) (body : List Value) (joined : Bool)
  deriving Repr

namespace Value

/-- Whether the part was written right behind the one before it. -/
def joined : Value → Bool
  | literal _ j | reference _ j | compound _ _ j => j

/-- A text without the one space it may start with. -/
def dropSpace : Text → Text
  | ' ' :: t => t
  | t => t

/-- The space before a part. -/
def gap (joined : Bool) : Text := if joined then [] else [' ']

mutual

/-- A part as text, with the space before it. -/
def renderOne : Value → Text
  | literal text j => gap j ++ text
  | reference ref j => gap j ++ ref.text
  | compound form body j =>
    gap j ++ form.opening ++ dropSpace (render body) ++ form.closing

/-- The parts of a value as text. -/
def render : List Value → Text
  | [] => []
  | v :: vs => renderOne v ++ render vs

end

mutual

/-- The references in a part. -/
def referencesOfOne : Value → List Reference
  | literal _ _ => []
  | reference ref _ => [ref]
  | compound _ body _ => references body

/-- The references in a value, in the order in which they are written. -/
def references : List Value → List Reference
  | [] => []
  | v :: vs => referencesOfOne v ++ references vs

end

theorem render_append (vs ws : List Value) : render (vs ++ ws) = render vs ++ render ws := by
  induction vs with
  | nil => rfl
  | cons v vs ih => simp [render, ih]

theorem references_append (vs ws : List Value) :
    references (vs ++ ws) = references vs ++ references ws := by
  induction vs with
  | nil => rfl
  | cons v vs ih => simp [references, ih]

end Value

end IndentedSass
