/-
  The state of a reading.

  A file is read line by line.  The state holds the tree so far, the problems
  found, what is visible, and what is still open: a block comment that goes on,
  and blank lines that wait for the line that tells their block.

  * `Reader.target` is the body that a line belongs to, by its indentation;
  * `Reader.insert` adds a node there, `Reader.addBlock` also opens it and
    `Reader.addLeaf` closes the blocks that are not above it; a path that leads
    nowhere is noted in `Reader.lost`;
  * `Reader.flushBlanks` places the waiting blank lines.
-/
import IndentedSass.Indent.Column
import IndentedSass.Scope

namespace IndentedSass

/-- A block comment that goes on. -/
structure OpenComment where
  /-- Where its node is. -/
  path : TreePath
  /-- The column of its opening line. -/
  column : Nat
  deriving DecidableEq, Repr

/-- The indentation of a line. -/
structure LineInfo where
  /-- The line, from zero. -/
  index : Nat
  /-- Its indentation, in columns. -/
  column : Nat
  /-- The nesting level of that column. -/
  rawLevel : Nat
  deriving DecidableEq, Repr

/-- The state of a reading. -/
structure Reader where
  /-- The file that is read. -/
  uri : Uri
  /-- How it is indented. -/
  style : IndentStyle
  /-- The tree so far. -/
  nodes : List Node := []
  /-- The problems found so far. -/
  diagnostics : List Diagnostic := []
  /-- What is visible. -/
  scope : Scope
  /-- The block comment that goes on. -/
  openComment : Option OpenComment := none
  /-- Whether a `@use` may still come: nothing was read but variables, comments
      and other `@use` lines. -/
  useAllowed : Bool := true
  /-- The blank lines that wait for the next other line. -/
  pendingBlanks : List Nat := []
  /-- The paths that were followed and led to no body or block comment. -/
  lost : List TreePath := []
  deriving Repr

namespace Reader

/-- The state at the start of a file. -/
def start (uri : Uri) (style : IndentStyle) : Reader := { uri, style, scope := { uri } }

/-- The indentation of a line. -/
def lineInfo (r : Reader) (index : Nat) (line : Text) : LineInfo :=
  let column := Indent.width r.style.tabStop line
  ⟨index, column, Indent.level r.style.tabStop column⟩

/-- The level of a node on this line: never deeper than the open blocks allow. -/
def levelOf (r : Reader) (info : LineInfo) : Nat := min info.rawLevel r.scope.blocks.length

/-- The body that a line belongs to, and whether the line is deeper than the
    innermost open block allows. -/
def target (r : Reader) (info : LineInfo) : TreePath × Bool :=
  let blocks := r.scope.blocks
  if info.column < r.style.tabStop ∨ blocks.length = 0 then ([], false)
  else if blocks.length < info.rawLevel then ((blocks.getLast?.map (·.path)).getD [], true)
  else ((blocks[info.rawLevel - 1]?.map (·.path)).getD [], false)

/-- Notes a problem. -/
def report (r : Reader) (problem : Problem) (range : Range) : Reader :=
  { r with diagnostics := r.diagnostics ++ [⟨problem, range⟩] }

/-- The body that a line belongs to, after noting that it is too deep. -/
def place (r : Reader) (info : LineInfo) (line : Text) : Reader × TreePath :=
  let (path, tooDeep) := r.target info
  if tooDeep then
    (r.report (.invalidIndentation r.scope.blocks.length r.style)
      (.within info.index 0 line.length), path)
  else (r, path)

/-- Adds a node to the body at a path, and gives the path of the node.  Without
    such a body the path is lost and the node goes to the top level. -/
def insert (r : Reader) (node : Node) (path : TreePath) : Reader × TreePath :=
  match Tree.appendAt? node r.nodes path with
  | some (nodes, index) => ({ r with nodes }, path ++ [index])
  | none => ({ r with nodes := r.nodes ++ [node], lost := r.lost ++ [path] }, [r.nodes.length])

/-- Places the waiting blank lines in the body at a path. -/
def flushBlanks (r : Reader) (path : TreePath) : Reader :=
  r.pendingBlanks.foldl (fun r index => (r.insert (.leaf index .blank) path).1)
    { r with pendingBlanks := [] }

/-- Adds a block and opens it. -/
def addBlock (r : Reader) (info : LineInfo) (line : Text) (header : Header) : Reader :=
  let level := r.levelOf info
  let (r, path) := r.place info line
  let (r, path) := r.insert (.block info.index level header []) path
  { r with scope := r.scope.enter level path }

/-- Adds a leaf that leaves the open blocks open. -/
def addComment (r : Reader) (info : LineInfo) (line : Text) (leaf : Leaf) : Reader × TreePath :=
  let (r, path) := r.place info line
  r.insert (.leaf info.index leaf) path

/-- Adds a leaf and closes the blocks that are not above it. -/
def addLeaf (r : Reader) (info : LineInfo) (line : Text) (leaf : Leaf) : Reader :=
  let level := r.levelOf info
  let r := (r.addComment info line leaf).1
  { r with scope := r.scope.truncate level }

end Reader

end IndentedSass
