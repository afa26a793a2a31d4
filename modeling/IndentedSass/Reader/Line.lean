/-
  Reading one line.

  The kind of a line decides what it adds to the tree.  Lines that refer to no
  other file change the reader only; `@import` and `@use` lines also load files,
  so they act on the whole of a `Reading`: the reader, the state of the resolver
  and the warnings.

  * `Reading.readLine` reads a line of any kind;
  * `Reader.readProperty`, `Reader.readMixin`, `Reader.readBlockComment`, …
    read the lines of one kind.
-/
import IndentedSass.Line.Kind
import IndentedSass.Reader.Clause
import IndentedSass.Reader.Resolver
import IndentedSass.Reader.State
import IndentedSass.Reader.Value

namespace IndentedSass

namespace Reader

/-- Finds the declaration of a variable; `find` looks into other files, for a
    reference at a column. -/
def lookup (find : (column : Nat) → Finder) (r : Reader) : Lookups :=
  fun column => r.scope.resolve (find column)

/-- Notes that nothing but `@use` lines, variables and comments came so far no
    longer holds. -/
def forbidUse (r : Reader) : Reader := { r with useAllowed := false }

/-- A line that is nothing known is kept, with a warning. -/
def readUnclassified (r : Reader) (info : LineInfo) (line : Text) : Reader :=
  let r := r.forbidUse.report (.unclassifiedLine line) (.visible info.index line)
  r.addLeaf info line (.unclassified (r.levelOf info) line.trim)

/-- The parts of a value on this line; the references declared nowhere are
    noted. -/
def readValueAt (find : Nat → Finder) (r : Reader) (info : LineInfo)
    (column : Nat) (value : Text) : Reader × List Value :=
  let (parts, missing) := readValue (r.lookup find) ⟨info.index, column, r.levelOf info⟩ value
  ({ r with diagnostics := r.diagnostics ++ missing }, parts)

/-- `name: value` -/
def readProperty (find : Nat → Finder) (r : Reader) (info : LineInfo)
    (line : Text) : Reader :=
  let r := r.forbidUse
  match Line.splitDeclaration? line with
  | none => r.readUnclassified info line
  | some declaration =>
    let level := r.levelOf info
    let (r, value) := r.readValueAt find info declaration.column declaration.value
    r.addLeaf info line (.property level declaration.name value)

/-- `$name: value`; the variable is visible from here on. -/
def readVariable (find : Nat → Finder) (r : Reader) (info : LineInfo)
    (line : Text) : Reader :=
  match Line.splitDeclaration? line with
  | none => r.readUnclassified info line
  | some declaration =>
    let level := r.levelOf info
    let (r, value) := r.readValueAt find info declaration.column declaration.value
    let r := (r.addComment info line (.variableDecl level declaration.name value)).1
    { r with scope := r.scope.declare declaration.name info.index level }

/-- The parameters of a mixin, with their default values. -/
def readParameters (find : Nat → Finder) (r : Reader) (info : LineInfo) :
    List (Text × Nat) → Reader × List Parameter
  | [] => (r, [])
  | (text, column) :: rest =>
    match Line.splitDeclaration? text with
    | none =>
      let (r, parameters) := r.readParameters find info rest
      (r, ⟨text.trim, none⟩ :: parameters)
    | some declaration =>
      let (r, value) := r.readValueAt find info (column + declaration.column) declaration.value
      let (r, parameters) := r.readParameters find info rest
      (r, ⟨declaration.name, some value⟩ :: parameters)

/-- `@mixin name(parameters)`; the parameters are visible in its body. -/
def readMixin (find : Nat → Finder) (r : Reader) (info : LineInfo)
    (line : Text) : Reader :=
  let r := r.forbidUse
  let level := r.levelOf info
  let clause := MixinClause.ofLine line
  let (r, parameters) := r.readParameters find info clause.parameters
  let r := r.addBlock info line (.mixin clause.spelling clause.name parameters)
  let scope := parameters.foldl
    (fun s p => s.declareParameter p.name info.index (level + 1)) r.scope
  { r with scope }

/-- `/* comment`, which may go on in the next lines. -/
def readBlockComment (r : Reader) (info : LineInfo) (line : Text) : Reader :=
  let level := r.levelOf info
  let (r, path) := r.addComment info line (.blockComment level [⟨info.index, line.trim⟩])
  if Line.leavesCommentOpen line then { r with openComment := some ⟨path, info.column⟩ } else r

/-- A further line of the block comment that goes on.  Without such a comment at
    its path the path is lost. -/
def readCommentContent (r : Reader) (info : LineInfo) (line : Text) : Reader :=
  match r.openComment with
  | none => r
  | some comment =>
    let text := (dropColumns r.style.tabStop comment.column line).trimEnd
    let openComment := if Line.closesBlockComment line then none else r.openComment
    match Tree.nodeAt? r.nodes comment.path with
    | some (.leaf n (.blockComment level lines)) =>
      let node := Node.leaf n (.blockComment level (lines ++ [⟨info.index, text⟩]))
      { r with nodes := Tree.modifyAt (fun _ => node) r.nodes comment.path, openComment }
    | _ => { r with lost := r.lost ++ [comment.path], openComment }

/-- A `@use` line that comes too late is kept as a comment. -/
def readLateUse (r : Reader) (info : LineInfo) (line : Text) : Reader :=
  let r := r.report .useNotTopLevel (.visible info.index line)
  (r.addComment info line (.comment (r.levelOf info) ("// ".toList ++ line.trim))).1

end Reader

/-- A reading in progress. -/
structure Reading (σ : Type) where
  /-- The state of the reading. -/
  reader : Reader
  /-- The state of the resolver. -/
  files : σ
  /-- The warnings so far. -/
  warnings : List Warning := []

namespace Reading

variable {σ : Type}

/-- Loads a file and notes why it could not be loaded. -/
def load (resolver : Resolver σ) (g : Reading σ) (uri : Uri) (note : Uri → LoadError → Warning) :
    Reading σ :=
  let outcome := resolver.load g.files g.reader.style uri
  { g with
    files := outcome.state
    warnings := g.warnings ++ outcome.warnings ++ (outcome.error?.map (note uri)).toList }

/-- The file that a path of an `@import` line means.  A style sheet that is not
    read is not asked for. -/
def resolveImport (resolver : Resolver σ) (g : Reading σ) (path : Text) : Option Uri × σ :=
  if isPlainCss path then (none, g.files) else resolver.resolve g.files g.reader.uri path

/-- One path of an `@import` line at a level. -/
def readImportPath (resolver : Resolver σ) (info : LineInfo) (line : Text) (level : Nat)
    (g : Reading σ) (path : Text) : Reading σ :=
  let (uri?, files) := g.resolveImport resolver path
  let r := (g.reader.addComment info line (.importPath level path uri?)).1
  match uri? with
  | none => { g with files, reader := { r with scope := r.scope.truncate level } }
  | some uri =>
    let g := { g with files, reader := r }.load resolver uri .importFailed
    { g with reader := { r with scope := r.scope.declareImport (.merged uri) level } }

/-- `@import 'path', 'path'`; a line without paths is nothing known. -/
def readImport (resolver : Resolver σ) (g : Reading σ) (info : LineInfo) (line : Text) :
    Reading σ :=
  let r := g.reader.forbidUse
  match importPaths? line with
  | none | some [] => { g with reader := r.readUnclassified info line }
  | some paths =>
    paths.foldl (readImportPath resolver info line (r.levelOf info)) { g with reader := r }

/-- `@use 'path' as qualifier`; always at the top level. -/
def readUse (resolver : Resolver σ) (g : Reading σ) (info : LineInfo) (line : Text) : Reading σ :=
  if !g.reader.useAllowed then { g with reader := g.reader.readLateUse info line }
  else match UseClause.ofLine? line with
    | none => { g with reader := g.reader.readUnclassified info line }
    | some clause =>
      let (uri?, files) := resolver.resolve g.files g.reader.uri clause.path
      let node := Node.leaf info.index (.useModule clause.path uri? clause.qualifier)
      let r := (g.reader.insert node []).1
      match uri? with
      | none => { g with files, reader := r }
      | some uri =>
        let g := { g with files, reader := r }.load resolver uri .moduleFailed
        { g with
          reader := { r with scope := r.scope.declareImport (.qualified uri clause.qualifier) 0 } }

/-- Reads a line that is not blank, of a known kind. -/
def readKind (resolver : Resolver σ) (g : Reading σ) (info : LineInfo) (line : Text) :
    LineKind → Reading σ
  | .blank => g
  | .selector =>
    { g with reader := g.reader.forbidUse.addBlock info line (.rule line.trim) }
  | .fontFace => { g with reader := g.reader.forbidUse.addBlock info line .fontFace }
  | .mixin => { g with reader := g.reader.readMixin (resolver.find g.files info.index) info line }
  | .property => { g with reader := g.reader.readProperty (resolver.find g.files info.index) info line }
  | .variableDecl => { g with reader := g.reader.readVariable (resolver.find g.files info.index) info line }
  | .mixinCall =>
    let (spelling, text) := mixinCall line
    let leaf := Leaf.mixinCall (g.reader.levelOf info) spelling text
    { g with reader := g.reader.forbidUse.addLeaf info line leaf }
  | .extendRule =>
    let leaf := Leaf.extendRule (g.reader.levelOf info) (extended line)
    { g with reader := g.reader.forbidUse.addLeaf info line leaf }
  | .importPaths => g.readImport resolver info line
  | .useModule => g.readUse resolver info line
  | .comment =>
    let leaf := Leaf.comment (g.reader.levelOf info) line.trim
    { g with reader := (g.reader.addComment info line leaf).1 }
  | .blockCommentStart => { g with reader := g.reader.readBlockComment info line }
  | .blockCommentContent => { g with reader := g.reader.readCommentContent info line }
  | .literal => { g with reader := g.reader.readUnclassified info line }

/-- Reads the line at an index.  A block comment ends at the first line that
    does not belong to it; a blank line waits; the lines that wait go where the
    next other line goes. -/
def readLine (resolver : Resolver σ) (g : Reading σ) (index : Nat) (line : Text) : Reading σ :=
  let r := g.reader
  let info := r.lineInfo index line
  let kind := Line.kind r.style.tabStop (r.openComment.map (·.column)) line
  let r := if kind = .blockCommentContent then r else { r with openComment := none }
  if kind = .blank then
    { g with reader := { r with pendingBlanks := r.pendingBlanks ++ [index] } }
  else
    readKind resolver { g with reader := r.flushBlanks (r.target info).1 } info line kind

end Reading

end IndentedSass
