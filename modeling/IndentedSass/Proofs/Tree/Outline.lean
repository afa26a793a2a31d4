/-
  The outline of a tree.

  The outline is the tree without its blank lines and with all line numbers zero: those of
  the nodes, of the lines of block comments, and of the declarations that references lead
  to.  Texts that differ in their layout only have the same outline.

  * `Node.outline` and `Tree.outline`; `outline_eq` gives the outline of a body as a list;
  * `Tree.outlinePath` leads where a path led, in the outline (`outline_updateAt`);
  * `outline_graft` and `outline_modifyAt`: the outline of a tree that grew is the outline
    of the tree, grown;
  * `Extends.outlinePath`: growing leaves the paths of the outline as they are.
-/
import Mathlib
import IndentedSass.Proofs.Tree.Growth

namespace IndentedSass

/-! ## The parts of a node -/

/-- A place in a file, whatever the line. -/
def Location.outline (l : Location) : Location := { l with line := 0 }

namespace Value

mutual

/-- A part of a value with other targets of its references. -/
def retargetOfOne (e : Option Location → Option Location) : Value → Value
  | literal text j => literal text j
  | reference ref j => reference { ref with target := e ref.target } j
  | compound form body j => compound form (retarget e body) j

/-- A value with other targets of its references. -/
def retarget (e : Option Location → Option Location) : List Value → List Value
  | [] => []
  | v :: vs => retargetOfOne e v :: retarget e vs

end

/-- A value, whatever the lines its references lead to. -/
def outline (vs : List Value) : List Value := retarget (Option.map Location.outline) vs

variable (e : Option Location → Option Location)

theorem retarget_append (vs ws : List Value) :
    retarget e (vs ++ ws) = retarget e vs ++ retarget e ws := by
  induction vs with
  | nil => rfl
  | cons v vs ih => rw [List.cons_append, retarget, retarget, ih, List.cons_append]

theorem isEmpty_retarget (vs : List Value) : (retarget e vs).isEmpty = vs.isEmpty := by
  cases vs <;> rfl

mutual

theorem renderOne_retarget (v : Value) : renderOne (retargetOfOne e v) = renderOne v :=
  match v with
  | literal _ _ => rfl
  | reference _ _ => rfl
  | compound _ body _ => by rw [retargetOfOne, renderOne, renderOne, render_retarget body]

/-- The text of a value does not tell where its references lead. -/
theorem render_retarget (vs : List Value) : render (retarget e vs) = render vs :=
  match vs with
  | [] => rfl
  | v :: vs => by rw [retarget, render, render, renderOne_retarget v, render_retarget vs]

end

end Value

/-- A parameter, whatever the lines its references lead to. -/
def Parameter.outline (p : Parameter) : Parameter :=
  { p with default? := p.default?.map Value.outline }

/-- A header, whatever the lines its references lead to. -/
def Header.outline : Header → Header
  | .mixin spelling name parameters => .mixin spelling name (parameters.map Parameter.outline)
  | header => header

/-- A leaf without its line numbers. -/
def Leaf.outline : Leaf → Leaf
  | .property level name value => .property level name (Value.outline value)
  | .variableDecl level name value => .variableDecl level name (Value.outline value)
  | .blockComment level lines => .blockComment level (lines.map fun l => { l with line := 0 })
  | leaf => leaf

mutual

/-- A node without blank lines and line numbers. -/
def Node.outline : Node → Node
  | .leaf _ leaf => .leaf 0 leaf.outline
  | .block _ level header body => .block 0 level header.outline (Tree.outline body)

/-- A tree without blank lines and line numbers. -/
def Tree.outline : List Node → List Node
  | [] => []
  | node :: nodes =>
    if node.isBlank then Tree.outline nodes else node.outline :: Tree.outline nodes

end

namespace Tree

variable {body body' nodes nodes' added : List Node} {path q : TreePath} {node : Node} {i : Nat}

theorem isBlank_block (line level : Nat) (header : Header) (body : List Node) :
    (Node.block line level header body).isBlank = false := by
  cases header <;> rfl

theorem outline_eq (nodes : List Node) :
    outline nodes = (nodes.filter fun node => !node.isBlank).map Node.outline := by
  induction nodes with
  | nil => simp [outline]
  | cons node nodes ih =>
    rw [outline, ih, List.filter_cons]
    cases node.isBlank <;> rfl

@[simp] theorem outline_nil : outline [] = [] := by simp [outline]

theorem outline_append (first rest : List Node) :
    outline (first ++ rest) = outline first ++ outline rest := by
  simp [outline_eq]

theorem outline_cons (h : node.isBlank = false) (nodes : List Node) :
    outline (node :: nodes) = node.outline :: outline nodes := by
  rw [outline, h, if_neg Bool.false_ne_true]

theorem outline_blanks (indices : List Nat) :
    outline (indices.map fun index => .leaf index .blank) = [] := by
  rw [outline_eq, List.map_eq_nil_iff, List.filter_eq_nil_iff]
  intro node hnode
  obtain ⟨index, -, rfl⟩ := List.mem_map.1 hnode
  exact Bool.false_ne_true

/-! ## Paths -/

/-- The path that leads in the outline where the path leads in the tree. -/
def outlinePath (nodes : List Node) : TreePath → TreePath
  | [] => []
  | i :: path =>
    (outline (nodes.take i)).length ::
      match nodes[i]? with
      | some (.block _ _ _ body) => outlinePath body path
      | _ => path

theorem outlinePath_block {line level : Nat} {header : Header}
    (h : nodes[i]? = some (.block line level header body)) :
    outlinePath nodes (i :: path) = (outline (nodes.take i)).length :: outlinePath body path := by
  simp only [outlinePath, h]

theorem outlinePath_singleton (nodes : List Node) (i : Nat) :
    outlinePath nodes [i] = [(outline (nodes.take i)).length] := by
  rw [outlinePath]
  split <;> rfl

theorem outlinePath_concat (h : bodyAt? nodes path = some body) (i : Nat) :
    outlinePath nodes (path ++ [i]) =
      outlinePath nodes path ++ [(outline (body.take i)).length] := by
  induction path generalizing nodes with
  | nil =>
    cases h
    exact outlinePath_singleton ..
  | cons j path ih =>
    obtain ⟨line, level, header, inner, hj, hb⟩ := bodyAt?_cons.1 h
    rw [List.cons_append, outlinePath_block hj, outlinePath_block hj, ih hb, List.cons_append]

/-- The outline is cut at the place of a node that is not blank. -/
theorem outline_cut (h : nodes[i]? = some node) (hvisible : node.isBlank = false) :
    outline nodes = outline (nodes.take i) ++ node.outline :: outline (nodes.drop (i + 1)) := by
  obtain ⟨hlt, hget⟩ := List.getElem?_eq_some_iff.1 h
  rw [← outline_cons hvisible, ← outline_append, ← hget, List.getElem_cons_drop,
    List.take_append_drop]

/-- A node that is not blank is found at its place in the outline. -/
theorem getElem?_outline (h : nodes[i]? = some node) (hvisible : node.isBlank = false) :
    (outline nodes)[(outline (nodes.take i)).length]? = some node.outline := by
  rw [outline_cut h hvisible, List.getElem?_append_right (Nat.le_refl _), Nat.sub_self,
    List.getElem?_cons_zero]

/-- Putting a node in the place of another one, in the outline. -/
theorem outline_set {node' : Node} (h : nodes[i]? = some node) (hvisible : node.isBlank = false)
    (hvisible' : node'.isBlank = false) :
    outline (nodes.set i node') =
      (outline nodes).set (outline (nodes.take i)).length node'.outline := by
  have hlt : i < nodes.length := (List.getElem?_eq_some_iff.1 h).1
  rw [List.set_eq_take_append_cons_drop, if_pos hlt, outline_append, outline_cons hvisible',
    outline_cut h hvisible, List.set_append_right _ _ (Nat.le_refl _), Nat.sub_self,
    List.set_cons_zero]

/-- What is done to a body shows in the outline. -/
theorem outline_updateAt {f g : List Node → List Node} (h : bodyAt? nodes path = some body)
    (hfg : outline (f body) = g (outline body)) :
    outline (updateAt f nodes path) = updateAt g (outline nodes) (outlinePath nodes path) := by
  induction path generalizing nodes with
  | nil =>
    cases h
    exact hfg
  | cons i path ih =>
    obtain ⟨line, level, header, inner, hi, hb⟩ := bodyAt?_cons.1 h
    have hget : (outline nodes)[(outline (nodes.take i)).length]? =
        some (.block 0 level header.outline (outline inner)) := by
      rw [getElem?_outline hi (isBlank_block ..), Node.outline]
    rw [updateAt_block f hi, outlinePath_block hi, updateAt_block g hget,
      outline_set hi (isBlank_block ..) (isBlank_block ..), Node.outline, ih hb]

/-- The body at a path is found in the outline. -/
theorem bodyAt?_outline (h : bodyAt? nodes path = some body) :
    bodyAt? (outline nodes) (outlinePath nodes path) = some (outline body) := by
  induction path generalizing nodes with
  | nil =>
    cases h
    rfl
  | cons i path ih =>
    obtain ⟨line, level, header, inner, hi, hb⟩ := bodyAt?_cons.1 h
    have hget := getElem?_outline hi (isBlank_block ..)
    rw [Node.outline] at hget
    rw [outlinePath_block hi]
    exact bodyAt?_cons.2 ⟨0, level, header.outline, outline inner, hget, ih hb⟩

/-- The node at a path is found in the outline. -/
theorem nodeAt?_outline (h : nodeAt? nodes path = some node) (hvisible : node.isBlank = false) :
    nodeAt? (outline nodes) (outlinePath nodes path) = some node.outline := by
  obtain ⟨parent, i, body, rfl, hb, hi⟩ := nodeAt?_eq_some h
  rw [outlinePath_concat hb, nodeAt?_concat, bodyAt?_outline hb]
  exact getElem?_outline hi hvisible

/-! ## Trees that grew -/

/-- Nodes added to a body are added to the outline. -/
theorem outline_graft (added : List Node) (h : bodyAt? nodes path = some body) :
    outline (graft added nodes path) =
      graft (outline added) (outline nodes) (outlinePath nodes path) :=
  outline_updateAt h (outline_append body added)

/-- The path of the first node that is added to a body. -/
theorem outlinePath_graft (added : List Node) (h : bodyAt? nodes path = some body)
    (hpath : outlinePath (graft added nodes path) path = outlinePath nodes path) :
    outlinePath (graft added nodes path) (path ++ [body.length]) =
      outlinePath nodes path ++ [(outline body).length] := by
  rw [outlinePath_concat (bodyAt?_graft added h), hpath, List.take_left]

/-- A node that takes the place of another one does so in the outline. -/
theorem outline_modifyAt {node' : Node} (h : nodeAt? nodes path = some node)
    (hvisible : node.isBlank = false) (hvisible' : node'.isBlank = false) :
    outline (modifyAt (fun _ => node') nodes path) =
      modifyAt (fun _ => node'.outline) (outline nodes) (outlinePath nodes path) := by
  obtain ⟨parent, i, body, rfl, hb, hi⟩ := nodeAt?_eq_some h
  have hget := getElem?_outline hi hvisible
  have hmodify : outline (body.modify i fun _ => node') =
      (outline body).modify (outline (body.take i)).length fun _ => node'.outline := by
    rw [List.modify_eq_set_getElem?, List.modify_eq_set_getElem?, hi, hget]
    exact outline_set hi hvisible hvisible'
  rw [outlinePath_concat hb, modifyAt_concat, modifyAt_concat]
  exact outline_updateAt (g := (·.modify _ fun _ => node'.outline)) hb hmodify

theorem Continues.isBlank_eq {a b : Node} (h : Continues a b) : b.isBlank = a.isBlank := by
  cases h <;> rfl

/-- The nodes before a place are as many as before, blank lines left out. -/
theorem Extends.length_outline_take (h : Extends nodes nodes') (hi : i ≤ nodes.length) :
    (outline (nodes'.take i)).length = (outline (nodes.take i)).length := by
  simp only [outline_eq, List.length_map]
  induction i with
  | zero => simp
  | succ i ih =>
    have hget : nodes[i]? = some nodes[i] := List.getElem?_eq_getElem (by omega)
    obtain ⟨node', hn', hc⟩ := h [i] nodes[i] (by rw [nodeAt?_singleton, hget])
    rw [nodeAt?_singleton] at hn'
    rw [List.take_add_one, List.take_add_one, hget, hn', List.filter_append, List.filter_append,
      List.length_append, List.length_append, ih (by omega)]
    simp [hc.isBlank_eq, List.filter_cons]
    cases (nodes[i]).isBlank <;> rfl

/-- What extends a tree extends the bodies of its blocks. -/
theorem Extends.inner {line level : Nat} {header : Header} (h : Extends nodes nodes')
    (hi : nodes[i]? = some (.block line level header body)) :
    ∃ body', nodes'[i]? = some (.block line level header body') ∧ Extends body body' := by
  obtain ⟨body', hn'⟩ := h.block ((nodeAt?_singleton nodes i).trans hi)
  rw [nodeAt?_singleton] at hn'
  refine ⟨body', hn', fun path node hn => ?_⟩
  have hp : path ≠ [] := by
    rintro rfl
    cases hn
  obtain ⟨node', hnode', hc⟩ := h (i :: path) node
    ((nodeAt?_cons hp).2 ⟨line, level, header, body, hi, hn⟩)
  obtain ⟨_, _, _, inner, hi', hinner⟩ := (nodeAt?_cons hp).1 hnode'
  rw [hn'] at hi'
  cases hi'
  exact ⟨node', hinner, hc⟩

/-- In a tree that grew, the paths of the outline are the same. -/
theorem Extends.outlinePath (h : Extends nodes nodes') (hn : nodeAt? nodes path = some node) :
    Tree.outlinePath nodes' path = Tree.outlinePath nodes path := by
  induction path generalizing nodes nodes' with
  | nil => rfl
  | cons i path ih =>
    by_cases hp : path = []
    · subst hp
      rw [nodeAt?_singleton] at hn
      have hlt := (List.getElem?_eq_some_iff.1 hn).1
      rw [outlinePath_singleton, outlinePath_singleton, h.length_outline_take (Nat.le_of_lt hlt)]
    · obtain ⟨line, level, header, inner, hi, hinner⟩ := (nodeAt?_cons hp).1 hn
      obtain ⟨inner', hi', hextends⟩ := h.inner hi
      have hlt := (List.getElem?_eq_some_iff.1 hi).1
      rw [outlinePath_block hi, outlinePath_block hi', h.length_outline_take (Nat.le_of_lt hlt),
        ih hextends hinner]

theorem Extends.outlinePath_body (h : Extends nodes nodes')
    (hb : Tree.bodyAt? nodes path = some body) :
    Tree.outlinePath nodes' path = Tree.outlinePath nodes path := by
  by_cases hp : path = []
  · subst hp
    rfl
  · obtain ⟨line, level, header, hn⟩ := (bodyAt?_eq_some_iff hp).1 hb
    exact h.outlinePath hn

end Tree

end IndentedSass
