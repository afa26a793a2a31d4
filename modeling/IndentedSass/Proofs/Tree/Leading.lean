/-
  Bodies that begin with their declarations.

  In a tidy rule the declarations come first and the nested rules behind them.  A tree that
  has grown to a tidy one was tidy before.

  * `Tree.BlocksLast`: no declaration comes behind a block of the same body;
  * `Tree.isTidy` tests that of all blocks of a tree, `Tree.Tidy` says it of the bodies at all
    paths (`tidy_of_isTidy`);
  * `Tidy.of_extends`: it holds of the trees from which the tree has grown;
  * `BlocksLast.not_behind`: a declaration is not added to a body with a block.
-/
import Mathlib
import IndentedSass.Proofs.Tree.Growth

namespace IndentedSass

/-- Declarations, includes and extends. -/
def NodeKind.declares : NodeKind → Bool
  | .property | .variableDecl | .mixinCall | .extendRule => true
  | _ => false

namespace Tree

variable {nodes nodes' body body' added : List Node} {path : TreePath}

/-- No declaration, include or extend comes behind a block. -/
def BlocksLast (body : List Node) : Prop :=
  body.Pairwise fun node later => node.children?.isSome = true → later.kind.declares = false

instance (body : List Node) : Decidable (BlocksLast body) :=
  inferInstanceAs (Decidable (List.Pairwise _ _))

mutual

/-- In the blocks of a node the declarations, includes and extends come before the nested
    blocks. -/
def isTidyOne : Node → Bool
  | .leaf _ _ => true
  | .block _ _ _ body => decide (BlocksLast body) && isTidy body

/-- In every block of a tree the declarations, includes and extends come before the nested
    blocks. -/
def isTidy : List Node → Bool
  | [] => true
  | node :: nodes => isTidyOne node && isTidy nodes

end

/-- The same, by the paths of the blocks. -/
def Tidy (nodes : List Node) : Prop :=
  ∀ path body, path ≠ [] → bodyAt? nodes path = some body → BlocksLast body

theorem isTidyOne_of_getElem? {node : Node} {i : Nat} (h : isTidy nodes = true)
    (hi : nodes[i]? = some node) : isTidyOne node = true := by
  induction nodes generalizing i with
  | nil => cases hi
  | cons first rest ih =>
    rw [isTidy, Bool.and_eq_true] at h
    cases i with
    | zero =>
      cases hi
      exact h.1
    | succ i => exact ih h.2 hi

theorem tidy_of_isTidy (h : isTidy nodes = true) : Tidy nodes := by
  intro path
  induction path generalizing nodes with
  | nil => exact fun body hne => absurd rfl hne
  | cons i path ih =>
    intro body _ hb
    obtain ⟨line, level, header, inner, hi, hb⟩ := bodyAt?_cons.1 hb
    have hone := isTidyOne_of_getElem? h hi
    rw [isTidyOne, Bool.and_eq_true, decide_eq_true_eq] at hone
    by_cases hp : path = []
    · subst hp
      cases hb
      exact hone.1
    · exact ih hone.2 body hp hb

/-! ## Trees that grew -/

theorem Continues.kind_eq {a b : Node} (h : Continues a b) : b.kind = a.kind := by
  cases h <;> rfl

theorem Continues.isSome_children {a b : Node} (h : Continues a b) :
    b.children?.isSome = a.children?.isSome := by
  cases h <;> rfl

/-- The nodes of a body stay where they are. -/
theorem Extends.getElem? {node : Node} {i : Nat} (h : Extends nodes nodes')
    (hb : Tree.bodyAt? nodes path = some body) (hb' : Tree.bodyAt? nodes' path = some body')
    (hi : body[i]? = some node) : ∃ node', body'[i]? = some node' ∧ Continues node node' := by
  obtain ⟨node', hn', hc⟩ := h (path ++ [i]) node (by rw [nodeAt?_concat, hb]; exact hi)
  rw [nodeAt?_concat, hb'] at hn'
  exact ⟨node', hn', hc⟩

theorem BlocksLast.of_extends (h : Extends nodes nodes') (hb : Tree.bodyAt? nodes path = some body)
    (hb' : Tree.bodyAt? nodes' path = some body') (hlast : BlocksLast body') : BlocksLast body := by
  refine List.pairwise_iff_getElem.2 fun i j hi hj hij hblock => ?_
  obtain ⟨first, hfirst, hc⟩ := h.getElem? hb hb' (List.getElem?_eq_getElem hi)
  obtain ⟨second, hsecond, hc'⟩ := h.getElem? hb hb' (List.getElem?_eq_getElem hj)
  obtain ⟨hi', rfl⟩ := List.getElem?_eq_some_iff.1 hfirst
  obtain ⟨hj', rfl⟩ := List.getElem?_eq_some_iff.1 hsecond
  rw [← hc'.kind_eq]
  exact List.pairwise_iff_getElem.1 hlast i j hi' hj' hij (hc.isSome_children.trans hblock)

/-- What has grown to a tidy tree was tidy. -/
theorem Tidy.of_extends (h : Extends nodes nodes') (htidy : Tidy nodes') : Tidy nodes := by
  intro path body hp hb
  obtain ⟨body', hb'⟩ := h.bodyAt? hb
  exact BlocksLast.of_extends h hb hb' (htidy path body' hp hb')

/-- A declaration that is added to a body finds no block there. -/
theorem BlocksLast.not_behind {node : Node} (h : BlocksLast (body ++ node :: added))
    (hdeclares : node.kind.declares = true) {block : Node} (hmem : block ∈ body) :
    block.children?.isSome = false := by
  refine Bool.eq_false_iff.2 fun hblock => ?_
  have hlater := (List.pairwise_append.1 h).2.2 block hmem node (List.mem_cons_self ..) hblock
  rw [hdeclares] at hlater
  cases hlater

end Tree

end IndentedSass
