/-
  The sketch of a tree.

  The sketch is a tree without blank lines, without line numbers, and without the places
  that references and imports lead to: the kinds, levels, names and values of the nodes,
  and what is nested under what.

  * `Leaf.sketch`, `Header.sketch` and `Tree.sketch`, with one law for each kind of node;
  * `Tree.sketch_renumbered`: writing a tree, which drops blank lines and numbers the
    nodes anew, leaves its sketch as it is.
-/
import Mathlib
import IndentedSass.Printer
import IndentedSass.Proofs.Tree.Shape

namespace IndentedSass

namespace Value

variable {e e' : Option Location → Option Location}

mutual

theorem retargetOfOne_retargetOfOne (v : Value) :
    retargetOfOne e' (retargetOfOne e v) = retargetOfOne (e' ∘ e) v :=
  match v with
  | literal _ _ => rfl
  | reference _ _ => rfl
  | compound _ body _ => by
    rw [retargetOfOne, retargetOfOne, retargetOfOne, retarget_retarget body]

theorem retarget_retarget (vs : List Value) :
    retarget e' (retarget e vs) = retarget (e' ∘ e) vs :=
  match vs with
  | [] => rfl
  | v :: vs => by
    rw [retarget, retarget, retarget, retargetOfOne_retargetOfOne v, retarget_retarget vs]

end

theorem outline_shape (vs : List Value) : outline (shape vs) = shape vs := retarget_retarget vs

end Value

/-- A leaf without line numbers and targets. -/
def Leaf.sketch (leaf : Leaf) : Leaf := (leaf.shape fun _ => none).outline

/-- A header without the targets of its references. -/
def Header.sketch (header : Header) : Header := header.shape.outline

/-- A tree without blank lines, line numbers and targets. -/
def Tree.sketch (nodes : List Node) : List Node := Tree.outline (Tree.shape (fun _ => none) nodes)

theorem Header.sketch_mixin (spelling : Spelling) (name : Text) (parameters : List Parameter) :
    (Header.mixin spelling name parameters).sketch =
      .mixin spelling name (parameters.map Parameter.shape) := by
  simp only [sketch, shape, outline, List.map_map]
  congr 1
  refine List.map_congr_left fun p _ => ?_
  obtain ⟨parameter, default?⟩ := p
  cases default? with
  | none => rfl
  | some value => simp [Parameter.outline, Parameter.shape, Value.outline_shape]

namespace Leaf

theorem sketch_property (level : Nat) (name : Text) (value : List Value) :
    (property level name value).sketch = property level name (Value.shape value) := by
  simp only [sketch, shape, outline, Value.outline_shape]

theorem sketch_variableDecl (level : Nat) (name : Text) (value : List Value) :
    (variableDecl level name value).sketch = variableDecl level name (Value.shape value) := by
  simp only [sketch, shape, outline, Value.outline_shape]

@[simp] theorem level?_sketch (leaf : Leaf) : leaf.sketch.level? = leaf.level? := by
  cases leaf <;> rfl

theorem sketch_renumber (line : Nat) (leaf : Leaf) : (leaf.renumber line).sketch = leaf.sketch := by
  cases leaf with
  | blockComment level lines =>
    simp only [renumber, sketch, shape, outline]
    congr 1
    refine List.ext_getElem? fun i => ?_
    simp only [List.getElem?_map, List.getElem?_mapIdx, Option.map_map]
    rfl
  | _ => rfl

end Leaf

namespace Tree

theorem sketch_append (first rest : List Node) :
    sketch (first ++ rest) = sketch first ++ sketch rest := by
  rw [sketch, shape_append, outline_append]
  rfl

@[simp] theorem sketch_nil : sketch [] = [] := rfl

theorem sketch_cons (node : Node) (nodes : List Node) :
    sketch (node :: nodes) = sketch [node] ++ sketch nodes := sketch_append [node] nodes

@[simp] theorem sketch_blank (line : Nat) : sketch [.leaf line .blank] = [] := rfl

theorem sketch_leaf {leaf : Leaf} (h : leaf ≠ .blank) (line : Nat) :
    sketch [.leaf line leaf] = [.leaf 0 leaf.sketch] := by
  cases leaf with
  | blank => exact absurd rfl h
  | _ => rfl

theorem sketch_block (line level : Nat) (header : Header) (body : List Node) :
    sketch [.block line level header body] =
      [.block 0 level header.sketch (sketch body)] := by
  rw [sketch, shape, shape, Node.shape, outline_cons (isBlank_block ..), outline_nil, Node.outline]
  rfl

theorem sketch_blanks (indices : List Nat) :
    sketch (indices.map fun index => .leaf index .blank) = [] := by
  induction indices with
  | nil => rfl
  | cons index indices ih => rw [List.map_cons, sketch_cons, ih, sketch_blank, List.append_nil]

/-- Where no line is blank, every node has its place in the sketch. -/
theorem length_sketch {nodes : List Node} (h : ∀ node ∈ nodes, node.isBlank = false) :
    (sketch nodes).length = nodes.length := by
  induction nodes with
  | nil => rfl
  | cons node nodes ih =>
    have hone : (sketch [node]).length = 1 := by
      have hvisible := h node (List.mem_cons_self ..)
      cases node with
      | leaf line leaf =>
        rw [sketch_leaf]
        · rfl
        · rintro rfl
          cases hvisible
      | block line level header body =>
        rw [sketch_block]
        rfl
    rw [sketch_cons, List.length_append, hone, ih fun n hn => h n (List.mem_cons_of_mem _ hn),
      List.length_cons, Nat.add_comm]

theorem kind_of_sketch {node node' : Node} (h : sketch [node] = [node']) :
    node'.kind = node.kind := by
  cases node with
  | leaf line leaf =>
    cases leaf with
    | blank => cases h
    | _ =>
      cases h
      rfl
  | block line level header body =>
    rw [sketch_block] at h
    cases h
    cases header <;> rfl

mutual

theorem sketch_printOne (style : IndentStyle) (cur : Cursor) : ∀ node : Node,
    sketch (printOne style cur node).nodes = sketch [node]
  | .leaf line leaf => by
    by_cases hblank : leaf = .blank
    · subst hblank
      simp only [printOne]
      split <;> rfl
    · have hkeep : ¬(cur.afterBlank && (Node.leaf line leaf).isBlank) = true := by
        cases leaf with
        | blank => exact absurd rfl hblank
        | _ => simp [Node.isBlank, Node.kind, Leaf.kind]
      have hblank' : leaf.renumber cur.line ≠ .blank := by
        cases leaf with
        | blank => exact absurd rfl hblank
        | _ => simp [Leaf.renumber]
      simp only [printOne, if_neg hkeep]
      rw [sketch_leaf hblank', sketch_leaf hblank, Leaf.sketch_renumber]
  | .block line level header body => by
    simp only [printOne]
    rw [sketch_block, sketch_block, sketch_print style ⟨cur.line + 1, false⟩ body]

theorem sketch_print (style : IndentStyle) (cur : Cursor) : ∀ nodes : List Node,
    sketch (print style cur nodes).nodes = sketch nodes
  | [] => rfl
  | node :: rest => by
    simp only [print]
    rw [sketch_append, sketch_printOne style cur node, sketch_print style _ rest, ← sketch_cons]

end

/-- The tree that was written has the sketch of the tree that was to be written. -/
theorem sketch_renumbered (style : IndentStyle) (nodes : List Node) :
    sketch (renumbered style nodes) = sketch nodes := sketch_print style {} nodes

end Tree

end IndentedSass
