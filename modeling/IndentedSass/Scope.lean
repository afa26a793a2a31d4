/-
  What is visible at a line.

  While a file is read, the scope holds the blocks that are open, and for each
  nesting level the variables declared and the files imported there.  Going back
  to a shallower level forgets all that is deeper; there is no hoisting.

  * `Scope.truncate` forgets, `Scope.enter`, `Scope.declare`,
    `Scope.declareParameter` and `Scope.declareImport` add;
  * `Scope.visibleVariables` lists the variables visible at a level, the
    innermost and latest first, `Scope.visibleImports` the imports in the order
    of their declaration;
  * `Scope.resolve` finds the declaration that a reference means: first a
    visible variable (only for references without a qualifier), then in the
    imports that the qualifier admits, where a `Finder` looks for it.
-/
import IndentedSass.Tree.Node

namespace IndentedSass

/-- A block that is open. -/
structure OpenBlock where
  /-- Its nesting level. -/
  level : Nat
  /-- Where it is in the tree. -/
  path : TreePath
  deriving DecidableEq, Repr

/-- A variable that was declared. -/
structure Declared where
  /-- Its name, with its `$` or `--`. -/
  name : Text
  /-- The line of its declaration, from zero. -/
  line : Nat
  deriving DecidableEq, Repr

/-- A file that was imported. -/
inductive Imported where
  /-- By `@import`: its variables are visible without a qualifier. -/
  | merged (uri : Uri)
  /-- By `@use`: its variables are visible with the qualifier; without one for
      `as *`. -/
  | qualified (uri : Uri) (qualifier : Option Text)
  deriving DecidableEq, Repr

namespace Imported

/-- The imported file. -/
def uri : Imported → Uri
  | merged u => u
  | qualified u _ => u

/-- Whether a reference with this qualifier can mean a variable of the file. -/
def admits (qualifier : Option Text) : Imported → Bool
  | merged _ => true
  | qualified _ own => own == qualifier

end Imported

/-- What is visible, by nesting level. -/
structure Scope where
  /-- The file that is read. -/
  uri : Uri
  /-- The open blocks, the outermost first. -/
  blocks : List OpenBlock := []
  /-- The variables of each level, in the order of their declaration. -/
  declared : List (List Declared) := []
  /-- The imports of each level, in the order of their declaration. -/
  imports : List (List Imported) := []
  deriving Repr

/-- Adds an item at a level of a list of levels, which is made long enough. -/
def addAtLevel {α : Type} (level : Nat) (a : α) (levels : List (List α)) : List (List α) :=
  (levels ++ List.replicate (level + 1 - levels.length) []).modify level (· ++ [a])

/-- Looks for a variable at the top level of a file.  One reference may ask for it
    several times; `turn` counts the questions before this one. -/
abbrev Finder := (turn : Nat) → Uri → (name : Text) → Option Location

/-- It may answer alike, however often it is asked. -/
instance : Coe (Uri → Text → Option Location) Finder := ⟨fun find _ => find⟩

namespace Scope

/-- Forgets what is deeper than `level`, and closes the blocks at `level`. -/
def truncate (s : Scope) (level : Nat) : Scope :=
  { s with
    blocks := s.blocks.take level
    declared := s.declared.take (level + 1)
    imports := s.imports.take (level + 1) }

/-- Opens a block. -/
def enter (s : Scope) (level : Nat) (path : TreePath) : Scope :=
  let s := s.truncate level
  { s with blocks := s.blocks ++ [⟨level, path⟩] }

/-- Declares a variable. -/
def declare (s : Scope) (name : Text) (line level : Nat) : Scope :=
  let s := s.truncate level
  { s with declared := addAtLevel level ⟨name, line⟩ s.declared }

/-- Declares a parameter of the mixin that was just opened, at the level of the
    mixin's body. -/
def declareParameter (s : Scope) (name : Text) (line level : Nat) : Scope :=
  { s with declared := addAtLevel level ⟨name, line⟩ (s.declared.take (level + 1)) }

/-- Makes an import visible. -/
def declareImport (s : Scope) (imported : Imported) (level : Nat) : Scope :=
  let s := s.truncate level
  { s with imports := addAtLevel level imported s.imports }

/-- The variables visible at a level, the innermost and latest first. -/
def visibleVariables (s : Scope) (level : Nat) : List Declared :=
  (s.declared.take (level + 1)).reverse.flatMap List.reverse

/-- The imports visible at a level, in the order of their declaration. -/
def visibleImports (s : Scope) (level : Nat) : List Imported :=
  (s.imports.take (level + 1)).flatten

/-- The declaration that a reference at a level means; the visible imports that
    the qualifier admits are asked one after the other. -/
def resolve (find : Finder) (s : Scope) (name : Text) (qualifier : Option Text) (level : Nat) :
    Option Location :=
  let fromImports :=
    ((s.visibleImports level).filter (Imported.admits qualifier)).zipIdx.findSome?
      fun asked => find asked.2 asked.1.uri name
  if qualifier.isNone then
    match (s.visibleVariables level).find? fun v => v.name == name with
    | some v => some ⟨s.uri, v.line⟩
    | none => fromImports
  else fromImports

end Scope

end IndentedSass
