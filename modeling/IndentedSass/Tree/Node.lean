/-
  The tree of a file.

  A node stands for a line, except a block comment, which has several lines, and
  an `@import` of several paths, which is several nodes.  Rules, mixins and
  `@font-face` are blocks: they own the lines nested under them.  All other
  nodes are leaves.

  * `Node.kind`, `Node.line`, `Node.level?` and `Node.children?` are the common
    facts of nodes;
  * `Tree.bodyAt?` and `Tree.nodeAt?` follow a path of indices from the top
    level, `Tree.appendAt?` adds a node to the body at a path and
    `Tree.modifyAt` changes the node at a path;
  * `Tree.listing` lists the nodes in document order, a block before its
    children.
-/
import IndentedSass.Diagnostic
import IndentedSass.Tree.Value

namespace IndentedSass

/-- How a mixin is declared or included. -/
inductive Spelling where
  /-- By the keyword: `@mixin name`, `@include name`. -/
  | keyword
  /-- By the sigil: `=name`, `+name`. -/
  | sigil
  deriving DecidableEq, Repr

/-- A parameter of a mixin. -/
structure Parameter where
  /-- The name, with its `$`. -/
  name : Text
  /-- The default value, when one is given. -/
  default? : Option (List Value)
  deriving Repr

/-- A line of a block comment. -/
structure CommentLine where
  /-- The line, from zero. -/
  line : Nat
  /-- The text, without the indentation of the comment. -/
  text : Text
  deriving DecidableEq, Repr

/-- The header of a block. -/
inductive Header where
  /-- A selector, a block at-rule or a keyframe point. -/
  | rule (selector : Text)
  /-- `@mixin name(parameters)` -/
  | mixin (spelling : Spelling) (name : Text) (parameters : List Parameter)
  /-- `@font-face` -/
  | fontFace
  deriving Repr

/-- A node without a body. -/
inductive Leaf where
  /-- `name: value` -/
  | property (level : Nat) (name : Text) (value : List Value)
  /-- `$name: value` or `--name: value` -/
  | variableDecl (level : Nat) (name : Text) (value : List Value)
  /-- One path of an `@import`, and the file it refers to. -/
  | importPath (level : Nat) (path : Text) (target : Option Uri)
  /-- `@use 'path' as qualifier`; there is no qualifier for `as *`. -/
  | useModule (path : Text) (target : Option Uri) (qualifier : Option Text)
  /-- `// text` -/
  | comment (level : Nat) (text : Text)
  /-- `/* … */`; the first line is the opening one. -/
  | blockComment (level : Nat) (lines : List CommentLine)
  /-- A line of white space. -/
  | blank
  /-- `@extend selector` -/
  | extendRule (level : Nat) (selector : Text)
  /-- `@include name(arguments)`; the text is all that follows the keyword. -/
  | mixinCall (level : Nat) (spelling : Spelling) (text : Text)
  /-- A line that is nothing known. -/
  | unclassified (level : Nat) (text : Text)
  deriving Repr

/-- A node of the tree. -/
inductive Node where
  /-- A node without a body. -/
  | leaf (line : Nat) (leaf : Leaf)
  /-- A block and the nodes nested under it. -/
  | block (line level : Nat) (header : Header) (body : List Node)
  deriving Repr

/-- The kinds of nodes and of parts of values. -/
inductive NodeKind where
  | selector | property | variableDecl | importPath | useModule | comment | blockComment | blank
  | extendRule | mixinCall | mixin | fontFace | unclassified | literal | reference | compound
  deriving DecidableEq, Repr

namespace NodeKind

/-- The name of a kind. -/
def name : NodeKind → String
  | selector => "selector"
  | property => "property"
  | variableDecl => "variable"
  | importPath => "import"
  | useModule => "use"
  | comment => "comment"
  | blockComment => "blockComment"
  | blank => "emptyLine"
  | extendRule => "extend"
  | mixinCall => "include"
  | mixin => "mixin"
  | fontFace => "fontFace"
  | unclassified => "unclassified"
  | literal => "literal"
  | reference => "variableRef"
  | compound => "expression"

end NodeKind

/-- The kind of a part. -/
def Value.kind : Value → NodeKind
  | literal _ _ => .literal
  | reference _ _ => .reference
  | compound _ _ _ => .compound

/-- The kind of a block. -/
def Header.kind : Header → NodeKind
  | rule _ => .selector
  | mixin _ _ _ => .mixin
  | fontFace => .fontFace

namespace Leaf

/-- The kind of a leaf. -/
def kind : Leaf → NodeKind
  | property _ _ _ => .property
  | variableDecl _ _ _ => .variableDecl
  | importPath _ _ _ => .importPath
  | useModule _ _ _ => .useModule
  | comment _ _ => .comment
  | blockComment _ _ => .blockComment
  | blank => .blank
  | extendRule _ _ => .extendRule
  | mixinCall _ _ _ => .mixinCall
  | unclassified _ _ => .unclassified

/-- The nesting level of a leaf; `@use` and blank lines have none. -/
def level? : Leaf → Option Nat
  | property l _ _ | variableDecl l _ _ | importPath l _ _ | comment l _ | blockComment l _
  | extendRule l _ | mixinCall l _ _ | unclassified l _ => some l
  | useModule _ _ _ | blank => none

end Leaf

namespace Node

/-- The kind of a node. -/
def kind : Node → NodeKind
  | leaf _ l => l.kind
  | block _ _ h _ => h.kind

/-- The line of a node, from zero. -/
def line : Node → Nat
  | leaf n _ => n
  | block n _ _ _ => n

/-- The nesting level of a node, when it has one. -/
def level? : Node → Option Nat
  | leaf _ l => l.level?
  | block _ l _ _ => some l

/-- The nodes nested under a block. -/
def children? : Node → Option (List Node)
  | leaf _ _ => none
  | block _ _ _ body => some body

/-- Whether a node is a blank line. -/
def isBlank (n : Node) : Bool := n.kind == .blank

end Node

/-- A path of indices from the top level: of a block's body, or of a node. -/
abbrev TreePath := List Nat

namespace Tree

/-- The body of the block at a path; the top level for the empty path. -/
def bodyAt? (nodes : List Node) : TreePath → Option (List Node)
  | [] => some nodes
  | i :: path =>
    match nodes[i]? with
    | some (.block _ _ _ body) => bodyAt? body path
    | _ => none

/-- The node at a path. -/
def nodeAt? (nodes : List Node) (path : TreePath) : Option Node := do
  let last ← path.getLast?
  let body ← bodyAt? nodes path.dropLast
  body[last]?

/-- The tree with `node` added at the end of the body at a path, and the index
    of the new node in that body. -/
def appendAt? (node : Node) (nodes : List Node) : TreePath → Option (List Node × Nat)
  | [] => some (nodes ++ [node], nodes.length)
  | i :: path =>
    match nodes[i]? with
    | some (.block line level header body) =>
      (appendAt? node body path).map fun (body, index) =>
        (nodes.set i (.block line level header body), index)
    | _ => none

/-- The tree with the node at a path changed by `f`. -/
def modifyAt (f : Node → Node) (nodes : List Node) : TreePath → List Node
  | [] => nodes
  | [i] => nodes.modify i f
  | i :: path =>
    match nodes[i]? with
    | some (.block line level header body) =>
      nodes.set i (.block line level header (modifyAt f body path))
    | _ => nodes

mutual

/-- A node and the nodes under it, in document order. -/
def listingOfOne : Node → List Node
  | .leaf n l => [.leaf n l]
  | .block n l h body => .block n l h body :: listing body

/-- The nodes of a tree in document order, a block before its children. -/
def listing : List Node → List Node
  | [] => []
  | n :: ns => listingOfOne n ++ listing ns

end

end Tree

/-- What reading a file gives: its tree and the problems found in it. -/
structure FileEntry where
  /-- The top level of the tree. -/
  body : List Node
  /-- The problems, in the order in which they were found. -/
  diagnostics : List Diagnostic
  deriving Repr

/-- A variable declaration. -/
structure VariableDecl where
  /-- The line, from zero. -/
  line : Nat
  /-- The nesting level. -/
  level : Nat
  /-- The name, with its `$` or `--`. -/
  name : Text
  /-- The value. -/
  value : List Value
  deriving Repr

namespace FileEntry

/-- The last declaration of a variable at the top level of a file. -/
def topLevelVariable? (entry : FileEntry) (name : Text) : Option VariableDecl :=
  entry.body.reverse.findSome? fun
    | .leaf line (.variableDecl level own value) =>
      if own = name then some ⟨line, level, own, value⟩ else none
    | _ => none

end FileEntry

end IndentedSass
