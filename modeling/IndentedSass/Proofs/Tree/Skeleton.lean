/-
  The skeleton of a tree.

  The skeleton is the sketch of a tree without the names and values of its declarations: the
  kinds, levels and headers of the nodes, and what is nested under what.

  * `Tree.skeleton`, with its laws;
  * `Tree.flat` has the nodes of a tree side by side at the top level; where levels have no
    indentation, a tree is written as its nodes side by side (`Tree.render_flat`);
  * `Tree.listing_eq_of_skeleton_flat`: only a tree without nesting has the skeleton of its nodes
    side by side.
-/
import Mathlib
import IndentedSass.Proofs.Printer.Order
import IndentedSass.Proofs.Tree.Sketch

namespace IndentedSass

/-- A declaration without its name and value. -/
def Leaf.bare : Leaf → Leaf
  | property level _ _ => property level [] []
  | variableDecl level _ _ => variableDecl level [] []
  | leaf => leaf

mutual

/-- A node without the names and values of declarations. -/
def Node.bare : Node → Node
  | .leaf line leaf => .leaf line leaf.bare
  | .block line level header body => .block line level header (Tree.bare body)

/-- A tree without the names and values of its declarations. -/
def Tree.bare : List Node → List Node
  | [] => []
  | node :: nodes => node.bare :: Tree.bare nodes

end

/-- The kinds, levels and headers of nodes, and what is nested under what. -/
def Tree.skeleton (nodes : List Node) : List Node := Tree.bare (Tree.sketch nodes)

namespace Tree

variable {nodes : List Node}

theorem bare_eq_map (nodes : List Node) : bare nodes = nodes.map Node.bare := by
  induction nodes with
  | nil => rfl
  | cons node nodes ih => rw [bare, ih, List.map_cons]

theorem skeleton_append (first rest : List Node) :
    skeleton (first ++ rest) = skeleton first ++ skeleton rest := by
  simp only [skeleton, sketch_append, bare_eq_map, List.map_append]

@[simp] theorem skeleton_nil : skeleton [] = [] := rfl

theorem skeleton_cons (node : Node) (nodes : List Node) :
    skeleton (node :: nodes) = skeleton [node] ++ skeleton nodes := skeleton_append [node] nodes

/-- Where no line is blank, every node has its place in the skeleton. -/
theorem length_skeleton (h : ∀ node ∈ nodes, node.isBlank = false) :
    (skeleton nodes).length = nodes.length := by
  rw [skeleton, bare_eq_map, List.length_map, length_sketch h]

theorem skeleton_block (line level : Nat) (header : Header) (body : List Node) :
    skeleton [.block line level header body] = [.block 0 level header.sketch (skeleton body)] := by
  rw [skeleton, sketch_block, bare, bare, Node.bare]
  rfl

end Tree

/-! ## Nodes side by side -/

/-- A leaf at the top level. -/
def Leaf.atTop : Leaf → Leaf
  | property _ name value => property 0 name value
  | variableDecl _ name value => variableDecl 0 name value
  | importPath _ path target => importPath 0 path target
  | comment _ text => comment 0 text
  | blockComment _ lines => blockComment 0 lines
  | extendRule _ selector => extendRule 0 selector
  | mixinCall _ spelling text => mixinCall 0 spelling text
  | unclassified _ text => unclassified 0 text
  | leaf => leaf

/-- A node at the top level, without the nodes under it. -/
def Node.atTop : Node → Node
  | leaf line l => leaf line l.atTop
  | block line _ header _ => block line 0 header []

/-- The nodes of a tree side by side at the top level. -/
def Tree.flat (nodes : List Node) : List Node := (Tree.listing nodes).map Node.atTop

theorem Leaf.kind_atTop (leaf : Leaf) : leaf.atTop.kind = leaf.kind := by
  cases leaf <;> rfl

namespace Node

variable {style : IndentStyle}

/-- Where levels have no indentation, a node is written as if it were at the top level. -/
theorem shown_atTop (h : ∀ level, Indent.ofLevel style level = []) (node : Node) :
    node.atTop.shown style = node.shown style := by
  cases node with
  | leaf line leaf =>
    rw [atTop, shown_leaf, shown_leaf, Leaf.kind_atTop]
    cases leaf with
    | mixinCall level spelling text => cases spelling <;> simp only [Leaf.atTop, Leaf.texts, h]
    | _ => simp only [Leaf.atTop, Leaf.texts, h]
  | block line level header body =>
    rw [atTop, shown, shown, isBlank_block, isBlank_block, texts, texts, h, h]

end Node

theorem Node.isBlank_atTop (node : Node) : node.atTop.isBlank = node.isBlank := by
  cases node with
  | leaf line leaf => rw [atTop, isBlank, isBlank, kind, kind, Leaf.kind_atTop]
  | block line level header body => rw [atTop, isBlank_block, isBlank_block]

namespace Tree

variable {style : IndentStyle} {nodes : List Node}

theorem sublist_listing (nodes : List Node) : nodes.Sublist (listing nodes) := by
  induction nodes with
  | nil => exact List.nil_sublist _
  | cons node nodes ih =>
    have hone : [node].Sublist (listingOfOne node) := by
      cases node <;> exact List.cons_sublist_cons.2 (List.nil_sublist _)
    exact hone.append ih

theorem listing_flat (nodes : List Node) : listing (flat nodes) = flat nodes := by
  rw [flat]
  induction listing nodes with
  | nil => rfl
  | cons node rest ih =>
    rw [List.map_cons, listing, ih]
    cases node <;> rfl

/-- Where levels have no indentation, a tree is written as its nodes side by side. -/
theorem render_flat (h : ∀ level, Indent.ofLevel style level = []) (nodes : List Node) :
    render style (flat nodes) = render style nodes := by
  rw [render_eq, render_eq, listing_flat, flat, List.map_map]
  congr 3
  exact List.map_congr_left fun node _ => Node.shown_atTop h node

/-- Only where nothing is nested, the skeleton is that of the nodes side by side. -/
theorem listing_eq_of_skeleton_flat (hvisible : ∀ node ∈ listing nodes, node.isBlank = false)
    (h : skeleton (flat nodes) = skeleton nodes) :
    listing nodes = nodes := by
  have hflat : ∀ node ∈ flat nodes, node.isBlank = false := by
    intro node hnode
    obtain ⟨own, hown, rfl⟩ := List.mem_map.1 hnode
    rw [Node.isBlank_atTop, hvisible own hown]
  have hlength := congrArg List.length h
  rw [length_skeleton hflat, flat, List.length_map,
    length_skeleton fun node hnode => hvisible node ((sublist_listing nodes).subset hnode)] at hlength
  exact ((sublist_listing nodes).eq_of_length_le hlength.le).symm

end Tree

end IndentedSass
