/-
  The shape of a tree.

  The shape is what a text alone tells of its tree: where the references of values lead is
  left out, and so is what `e` leaves out of the files that `@import` and `@use` lines lead
  to.  Nothing is moved, so a path leads to the same place in a tree and in its shape.

  * `Leaf.shape`, `Header.shape`, `Node.shape` and `Tree.shape`; `FileEntry.shape` also
    leaves out the references that were found nowhere;
  * `Tree.appendAt?_shape`, `Tree.nodeAt?_shape` and `Tree.modifyAt_shape`: growing and
    changing a tree, in its shape.
-/
import Mathlib
import IndentedSass.Proofs.Tree.Outline

namespace IndentedSass

/-- A value, wherever its references lead. -/
def Value.shape (vs : List Value) : List Value := retarget (fun _ => none) vs

/-- A parameter, wherever its references lead. -/
def Parameter.shape (p : Parameter) : Parameter := { p with default? := p.default?.map Value.shape }

/-- A header, wherever its references lead. -/
def Header.shape : Header → Header
  | .mixin spelling name parameters => .mixin spelling name (parameters.map Parameter.shape)
  | header => header

/-- A leaf, wherever its references lead; `e` says what is kept of the file it leads to. -/
def Leaf.shape (e : Option Uri → Option Uri) : Leaf → Leaf
  | .property level name value => .property level name (Value.shape value)
  | .variableDecl level name value => .variableDecl level name (Value.shape value)
  | .importPath level path target => .importPath level path (e target)
  | .useModule path target qualifier => .useModule path (e target) qualifier
  | leaf => leaf

mutual

/-- A node, wherever its references lead. -/
def Node.shape (e : Option Uri → Option Uri) : Node → Node
  | .leaf line leaf => .leaf line (leaf.shape e)
  | .block line level header body => .block line level header.shape (Tree.shape e body)

/-- A tree, wherever its references lead. -/
def Tree.shape (e : Option Uri → Option Uri) : List Node → List Node
  | [] => []
  | node :: nodes => node.shape e :: Tree.shape e nodes

end

/-- Whether a diagnostic notes a reference that was found nowhere. -/
def Diagnostic.isMissing (d : Diagnostic) : Bool :=
  match d.problem with
  | .variableNotFound _ => true
  | _ => false

/-- The diagnostics that the text alone tells. -/
def Diagnostic.shape (ds : List Diagnostic) : List Diagnostic := ds.filter fun d => !d.isMissing

/-- What the text alone tells of its reading. -/
def FileEntry.shape (e : Option Uri → Option Uri) (entry : FileEntry) : FileEntry :=
  ⟨Tree.shape e entry.body, Diagnostic.shape entry.diagnostics⟩

theorem Diagnostic.shape_append (ds ds' : List Diagnostic) :
    shape (ds ++ ds') = shape ds ++ shape ds' := List.filter_append ..

namespace Tree

variable (e : Option Uri → Option Uri)

theorem shape_eq_map (nodes : List Node) : shape e nodes = nodes.map (Node.shape e) := by
  induction nodes with
  | nil => simp [shape]
  | cons node nodes ih => rw [shape, ih, List.map_cons]

theorem shape_append (first rest : List Node) :
    shape e (first ++ rest) = shape e first ++ shape e rest := by
  simp [shape_eq_map]

@[simp] theorem length_shape (nodes : List Node) : (shape e nodes).length = nodes.length := by
  simp [shape_eq_map]

theorem getElem?_shape (nodes : List Node) (i : Nat) :
    (shape e nodes)[i]? = nodes[i]?.map (Node.shape e) := by
  simp [shape_eq_map]

theorem shape_set (nodes : List Node) (i : Nat) (node : Node) :
    shape e (nodes.set i node) = (shape e nodes).set i (node.shape e) := by
  simp only [shape_eq_map, List.map_set]

theorem appendAt?_shape (node : Node) (nodes : List Node) (path : TreePath) :
    appendAt? (node.shape e) (shape e nodes) path =
      (appendAt? node nodes path).map fun (nodes, index) => (shape e nodes, index) := by
  induction path generalizing nodes with
  | nil => simp [appendAt?, shape_append, shape]
  | cons i path ih =>
    simp only [appendAt?, getElem?_shape]
    cases nodes[i]? with
    | none => rfl
    | some found =>
      cases found with
      | leaf line leaf => rfl
      | block line level header body =>
        simp only [Option.map_some, Node.shape, ih, Option.map_map]
        congr 1
        funext found
        simp [shape_set, Node.shape]

theorem bodyAt?_shape (nodes : List Node) (path : TreePath) :
    bodyAt? (shape e nodes) path = (bodyAt? nodes path).map (shape e) := by
  induction path generalizing nodes with
  | nil => rfl
  | cons i path ih =>
    simp only [bodyAt?, getElem?_shape]
    cases nodes[i]? with
    | none => rfl
    | some found =>
      cases found with
      | leaf line leaf => rfl
      | block line level header body => simp only [Option.map_some, Node.shape, ih]

theorem nodeAt?_shape (nodes : List Node) (path : TreePath) :
    nodeAt? (shape e nodes) path = (nodeAt? nodes path).map (Node.shape e) := by
  unfold nodeAt?
  rw [bodyAt?_shape]
  cases path.getLast? with
  | none => rfl
  | some last =>
    cases bodyAt? nodes path.dropLast with
    | none => rfl
    | some body => exact getElem?_shape e body last

theorem modifyAt_shape (node : Node) (nodes : List Node) (path : TreePath) :
    modifyAt (fun _ => node.shape e) (shape e nodes) path =
      shape e (modifyAt (fun _ => node) nodes path) := by
  induction path generalizing nodes with
  | nil => rfl
  | cons i path ih =>
    cases path with
    | nil =>
      rw [modifyAt, modifyAt, List.modify_eq_set_getElem?, List.modify_eq_set_getElem?,
        getElem?_shape]
      cases nodes[i]? with
      | none => rfl
      | some found => exact (shape_set e nodes i node).symm
    | cons j path =>
      simp only [modifyAt, getElem?_shape]
      cases nodes[i]? with
      | none => rfl
      | some found =>
        cases found with
        | leaf line leaf => rfl
        | block line level header body => simp only [Option.map_some, Node.shape, ih, shape_set]

end Tree

end IndentedSass
