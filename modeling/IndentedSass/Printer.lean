/-
  Writing a tree.

  Every node is written at the indentation of its level, one line after the
  other.  Of several blank lines in a row only the first is written; the others
  are dropped from the tree as well, and the nodes are numbered anew, so that
  the tree and the text stay in step.

  * `Tree.print` gives the lines of a tree and the tree that they are the lines
    of; `Tree.render` joins them;
  * `Leaf.texts` and `Header.text` are the lines of single nodes.
-/
import IndentedSass.Indent.Column
import IndentedSass.Reader.Clause
import IndentedSass.Tree.Node

namespace IndentedSass

/-! ## Single nodes -/

/-- A parameter as text. -/
def Parameter.text (p : Parameter) : Text :=
  match p.default? with
  | some value => p.name ++ ':' :: Value.render value
  | none => p.name

/-- The header of a block as text. -/
def Header.text : Header → Text
  | rule selector => selector
  | mixin spelling name parameters =>
    let keyword := match spelling with
      | .keyword => "@mixin ".toList
      | .sigil => ['=']
    let list :=
      if parameters.isEmpty then []
      else '(' :: List.intercalate [',', ' '] (parameters.map Parameter.text) ++ [')']
    keyword ++ name ++ list
  | fontFace => "@font-face".toList

/-- A `@use` line; the qualifier is written when it is not the default one. -/
def useText (path : Text) (qualifier : Option Text) : Text :=
  let use := "@use '".toList ++ path ++ ['\'']
  match qualifier with
  | none => use ++ " as *".toList
  | some name => if name = defaultQualifier path then use else use ++ " as ".toList ++ name

namespace Leaf

/-- The lines of a leaf, with their indentation. -/
def texts (style : IndentStyle) : Leaf → List Text
  | property level name value | variableDecl level name value =>
    [Indent.ofLevel style level ++ name ++ ':' :: Value.render value]
  | importPath level path _ =>
    [Indent.ofLevel style level ++ "@import '".toList ++ path ++ ['\'']]
  | useModule path _ qualifier => [Indent.ofLevel style 0 ++ useText path qualifier]
  | comment level text | unclassified level text => [Indent.ofLevel style level ++ text]
  | blockComment level lines => lines.map fun l => Indent.ofLevel style level ++ l.text
  | blank => [[]]
  | extendRule level selector => [Indent.ofLevel style level ++ "@extend ".toList ++ selector]
  | mixinCall level .keyword text => [Indent.ofLevel style level ++ "@include ".toList ++ text]
  | mixinCall level .sigil text => [Indent.ofLevel style level ++ '+' :: text]

/-- A leaf whose own lines are numbered from `line` on. -/
def renumber (line : Nat) : Leaf → Leaf
  | blockComment level lines =>
    blockComment level (lines.mapIdx fun i l => { l with line := line + i })
  | l => l

end Leaf

/-! ## Trees -/

/-- Where a writer stands. -/
structure Cursor where
  /-- The number of the next line. -/
  line : Nat := 0
  /-- Whether the last line was blank. -/
  afterBlank : Bool := false
  deriving DecidableEq, Repr

/-- What was written. -/
structure Printout where
  /-- The nodes that were written, numbered anew. -/
  nodes : List Node
  /-- Their lines. -/
  lines : List Text
  /-- Where the writer stands after them. -/
  cursor : Cursor
  deriving Repr

namespace Tree

mutual

/-- Writes a node. -/
def printOne (style : IndentStyle) (cur : Cursor) : Node → Printout
  | .leaf line leaf =>
    if cur.afterBlank && (Node.leaf line leaf).isBlank then ⟨[], [], cur⟩
    else
      let texts := leaf.texts style
      let afterBlank := if texts.isEmpty then cur.afterBlank else (Node.leaf line leaf).isBlank
      ⟨[.leaf cur.line (leaf.renumber cur.line)], texts, ⟨cur.line + texts.length, afterBlank⟩⟩
  | .block _ level header body =>
    let inner := print style ⟨cur.line + 1, false⟩ body
    ⟨[.block cur.line level header inner.nodes],
      (Indent.ofLevel style level ++ header.text) :: inner.lines, inner.cursor⟩

/-- Writes nodes one after the other. -/
def print (style : IndentStyle) (cur : Cursor) : List Node → Printout
  | [] => ⟨[], [], cur⟩
  | node :: rest =>
    let first := printOne style cur node
    let others := print style first.cursor rest
    ⟨first.nodes ++ others.nodes, first.lines ++ others.lines, others.cursor⟩

end

/-- A tree as text. -/
def render (style : IndentStyle) (nodes : List Node) : Text :=
  Text.unlines (print style {} nodes).lines

/-- The tree that the written text is the text of. -/
def renumbered (style : IndentStyle) (nodes : List Node) : List Node := (print style {} nodes).nodes

end Tree

end IndentedSass
