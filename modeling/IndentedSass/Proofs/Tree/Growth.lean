/-
  How a tree grows.

  While a file is read, the tree changes in two ways only: nodes are added at the
  end of a body, and lines are added to a block comment.

  * `Tree.updateAt` changes the body at a path, `Tree.graft` adds nodes to it;
    `Replaces` is the same as a relation, for inductions that go down the path;
  * `appendAt?_eq_graft` and `modifyAt_eq_updateAt` tie them to the operations
    that a reader uses;
  * `updateAt_graft_block` and `modifyAt_graft`: changing what was just added is
    adding it changed;
  * `Tree.Extends`: every body of the old tree is still there, at its path, and
    its nodes are still there, at their indices.  A tree extends the trees it
    grew from (`extends_graft`, `Extends.trans`).
-/
import Mathlib
import IndentedSass.Tree.Node

namespace IndentedSass

namespace Tree

variable {body body' nodes nodes' : List Node} {path : TreePath}

/-! ## The body at a path -/

/-- The tree with the body at a path changed by `f`. -/
def updateAt (f : List Node → List Node) (nodes : List Node) : TreePath → List Node
  | [] => f nodes
  | i :: path =>
    match nodes[i]? with
    | some (.block line level header body) =>
      nodes.set i (.block line level header (updateAt f body path))
    | _ => nodes

/-- The tree with `added` at the end of the body at a path. -/
def graft (added nodes : List Node) (path : TreePath) : List Node := updateAt (· ++ added) nodes path

/-- `new` is the tree `old` with the body at a path, `body`, replaced by `body'`. -/
inductive Replaces (body body' : List Node) : TreePath → List Node → List Node → Prop
  | here : Replaces body body' [] body body'
  | under {before after inner inner' : List Node} {line level : Nat} {header : Header}
      {path : TreePath} : Replaces body body' path inner inner' →
      Replaces body body' (before.length :: path)
        (before ++ .block line level header inner :: after)
        (before ++ .block line level header inner' :: after)

theorem updateAt_block (f : List Node → List Node) {i line level : Nat} {header : Header}
    {inner : List Node} (h : nodes[i]? = some (.block line level header inner)) :
    updateAt f nodes (i :: path) =
      nodes.set i (.block line level header (updateAt f inner path)) := by
  simp only [updateAt, h]

theorem updateAt_of_not_block (f : List Node → List Node) {i : Nat}
    (h : ∀ line level header inner, nodes[i]? ≠ some (.block line level header inner)) :
    updateAt f nodes (i :: path) = nodes := by
  unfold updateAt
  split
  · rename_i hi
    exact absurd hi (h _ _ _ _)
  · rfl

theorem bodyAt?_cons {i : Nat} :
    bodyAt? nodes (i :: path) = some body ↔
      ∃ line level header inner, nodes[i]? = some (.block line level header inner) ∧
        bodyAt? inner path = some body := by
  simp only [bodyAt?]
  split
  · rename_i line level header inner h
    simp [h]
  · rename_i h
    simp only [reduceCtorEq, false_iff]
    rintro ⟨line, level, header, inner, hi, -⟩
    exact h _ _ _ _ hi

theorem bodyAt?_append {first rest : TreePath} :
    bodyAt? nodes (first ++ rest) = (bodyAt? nodes first).bind (bodyAt? · rest) := by
  induction first generalizing nodes with
  | nil => rfl
  | cons i first ih =>
    simp only [List.cons_append, bodyAt?]
    split
    · exact ih
    · rfl

theorem nodeAt?_concat {i : Nat} :
    nodeAt? nodes (path ++ [i]) = (bodyAt? nodes path).bind (·[i]?) := by
  simp [nodeAt?, bind]

theorem nodeAt?_eq_some {node : Node} (h : nodeAt? nodes path = some node) :
    ∃ parent i body, path = parent ++ [i] ∧ bodyAt? nodes parent = some body ∧
      body[i]? = some node := by
  cases path using List.reverseRecOn with
  | nil => simp [nodeAt?, bind] at h
  | append_singleton parent i =>
    rw [nodeAt?_concat, Option.bind_eq_some_iff] at h
    obtain ⟨body, hb, hi⟩ := h
    exact ⟨parent, i, body, rfl, hb, hi⟩

theorem replaces_updateAt (f : List Node → List Node) (h : bodyAt? nodes path = some body) :
    Replaces body (f body) path nodes (updateAt f nodes path) := by
  induction path generalizing nodes with
  | nil =>
    cases h
    exact .here
  | cons i path ih =>
    obtain ⟨line, level, header, inner, hi, hb⟩ := bodyAt?_cons.1 h
    obtain ⟨hlt, hget⟩ := List.getElem?_eq_some_iff.1 hi
    have hsplit : nodes = nodes.take i ++ .block line level header inner :: nodes.drop (i + 1) := by
      rw [← hget, List.getElem_cons_drop, List.take_append_drop]
    have hlen : (nodes.take i).length = i := by rw [List.length_take]; omega
    have hset : updateAt f nodes (i :: path) = nodes.take i ++
        .block line level header (updateAt f inner path) :: nodes.drop (i + 1) := by
      simp only [updateAt, hi]
      exact List.set_eq_take_append_cons_drop.trans (if_pos hlt)
    rw [hset]
    have hunder : Replaces body (f body) ((nodes.take i).length :: path)
        (nodes.take i ++ .block line level header inner :: nodes.drop (i + 1))
        (nodes.take i ++ .block line level header (updateAt f inner path) :: nodes.drop (i + 1)) :=
      .under (ih hb)
    rwa [hlen, ← hsplit] at hunder

theorem Replaces.bodyAt?_old (h : Replaces body body' path nodes nodes') :
    bodyAt? nodes path = some body := by
  induction h with
  | here => rfl
  | under _ ih => simpa [bodyAt?] using ih

theorem Replaces.bodyAt?_new (h : Replaces body body' path nodes nodes') :
    bodyAt? nodes' path = some body' := by
  induction h with
  | here => rfl
  | under _ ih => simpa [bodyAt?] using ih

theorem updateAt_updateAt (f g : List Node → List Node) :
    updateAt g (updateAt f nodes path) path = updateAt (g ∘ f) nodes path := by
  induction path generalizing nodes with
  | nil => rfl
  | cons i path ih =>
    by_cases h : ∃ line level header inner, nodes[i]? = some (.block line level header inner)
    · obtain ⟨line, level, header, inner, hi⟩ := h
      obtain ⟨hlt, -⟩ := List.getElem?_eq_some_iff.1 hi
      have hset : (nodes.set i (.block line level header (updateAt f inner path)))[i]? =
          some (.block line level header (updateAt f inner path)) :=
        List.getElem?_set_self hlt
      rw [updateAt_block f hi, updateAt_block g hset, updateAt_block (g ∘ f) hi, ih, List.set_set]
    · have h' : ∀ line level header inner, nodes[i]? ≠ some (.block line level header inner) :=
        fun line level header inner hi => h ⟨line, level, header, inner, hi⟩
      rw [updateAt_of_not_block f h', updateAt_of_not_block g h', updateAt_of_not_block (g ∘ f) h']

@[simp] theorem graft_graft (a b : List Node) :
    graft b (graft a nodes path) path = graft (a ++ b) nodes path := by
  simp only [graft, updateAt_updateAt]
  congr 1
  funext body
  simp

@[simp] theorem graft_nil (added : List Node) : graft added nodes [] = nodes ++ added := rfl

theorem graft_nothing : graft [] nodes path = nodes := by
  induction path generalizing nodes with
  | nil => simp
  | cons i path ih =>
    by_cases h : ∃ line level header inner, nodes[i]? = some (.block line level header inner)
    · obtain ⟨line, level, header, inner, hi⟩ := h
      obtain ⟨hlt, hget⟩ := List.getElem?_eq_some_iff.1 hi
      rw [graft, updateAt_block _ hi, ← graft, ih, ← hget, List.set_getElem_self]
    · exact updateAt_of_not_block _ fun line level header inner hi =>
        h ⟨line, level, header, inner, hi⟩

theorem replaces_graft (added : List Node) (h : bodyAt? nodes path = some body) :
    Replaces body (body ++ added) path nodes (graft added nodes path) :=
  replaces_updateAt (· ++ added) h

theorem bodyAt?_graft (added : List Node) (h : bodyAt? nodes path = some body) :
    bodyAt? (graft added nodes path) path = some (body ++ added) :=
  (replaces_graft added h).bodyAt?_new

theorem updateAt_congr {f g : List Node → List Node} (hb : bodyAt? nodes path = some body)
    (hfg : f body = g body) : updateAt f nodes path = updateAt g nodes path := by
  induction path generalizing nodes with
  | nil =>
    cases hb
    exact hfg
  | cons i path ih =>
    obtain ⟨line, level, header, inner, hi, hb⟩ := bodyAt?_cons.1 hb
    rw [updateAt_block f hi, updateAt_block g hi, ih hb]

theorem updateAt_append (f : List Node → List Node) (first rest : TreePath) :
    updateAt f nodes (first ++ rest) = updateAt (updateAt f · rest) nodes first := by
  induction first generalizing nodes with
  | nil => rfl
  | cons i first ih =>
    rw [List.cons_append]
    by_cases h : ∃ line level header inner, nodes[i]? = some (.block line level header inner)
    · obtain ⟨line, level, header, inner, hi⟩ := h
      rw [updateAt_block f hi, updateAt_block _ hi, ih]
    · have h' : ∀ line level header inner, nodes[i]? ≠ some (.block line level header inner) :=
        fun line level header inner hi => h ⟨line, level, header, inner, hi⟩
      rw [updateAt_of_not_block f h', updateAt_of_not_block _ h']

/-- What is done to the body of a block that was just added is done to it before. -/
theorem updateAt_graft_block (f : List Node → List Node) {line level : Nat} {header : Header}
    {inner : List Node} (hb : bodyAt? nodes path = some body) (first : List Node) :
    updateAt f (graft (first ++ [.block line level header inner]) nodes path)
        (path ++ [body.length + first.length]) =
      graft (first ++ [.block line level header (f inner)]) nodes path := by
  rw [updateAt_append, graft, updateAt_updateAt, graft]
  refine updateAt_congr hb ?_
  have hget : (body ++ (first ++ [.block line level header inner]))[body.length + first.length]? =
      some (.block line level header inner) := by
    rw [← List.append_assoc, ← List.length_append, List.getElem?_concat_length]
  rw [Function.comp_apply, updateAt_block f hget, ← List.append_assoc, ← List.length_append,
    List.set_append_right _ _ (Nat.le_refl _), Nat.sub_self, List.set_cons_zero, List.append_assoc]
  rfl

/-! ## The operations of a reader -/

theorem appendAt?_eq_graft (node : Node) (h : bodyAt? nodes path = some body) :
    appendAt? node nodes path = some (graft [node] nodes path, body.length) := by
  induction path generalizing nodes with
  | nil =>
    cases h
    rfl
  | cons i path ih =>
    obtain ⟨line, level, header, inner, hi, hb⟩ := bodyAt?_cons.1 h
    simp [appendAt?, graft, updateAt, hi, ih hb]

theorem modifyAt_concat (f : Node → Node) (i : Nat) :
    modifyAt f nodes (path ++ [i]) = updateAt (·.modify i f) nodes path := by
  induction path generalizing nodes with
  | nil => rfl
  | cons j path ih =>
    cases hp : path ++ [i] with
    | nil => simp at hp
    | cons k rest =>
      rw [hp] at ih
      rw [List.cons_append, hp]
      unfold modifyAt
      split
      · rename_i hj
        rw [updateAt_block _ hj, ih]
      · rename_i hj
        rw [updateAt_of_not_block _ fun line level header inner h => hj line level header inner h]

/-- A node that was just added can be added changed. -/
theorem modifyAt_graft {node node' : Node} (hb : bodyAt? nodes path = some body)
    (first : List Node) :
    modifyAt (fun _ => node') (graft (first ++ [node]) nodes path)
        (path ++ [body.length + first.length]) =
      graft (first ++ [node']) nodes path := by
  rw [modifyAt_concat, graft, updateAt_updateAt, graft]
  refine updateAt_congr hb ?_
  have hget : (body ++ (first ++ [node]))[body.length + first.length]? = some node := by
    rw [← List.append_assoc, ← List.length_append, List.getElem?_concat_length]
  rw [Function.comp_apply, List.modify_eq_set_getElem?, hget, ← List.append_assoc,
    ← List.length_append]
  simp

/-- Changing the node at a path is changing the body it stands in. -/
theorem modifyAt_eq_updateAt {node : Node} (node' : Node) (h : nodeAt? nodes path = some node) :
    ∃ parent before after, path = parent ++ [before.length] ∧
      Replaces (before ++ node :: after) (before ++ node' :: after) parent nodes
        (modifyAt (fun _ => node') nodes path) := by
  obtain ⟨parent, i, body, rfl, hb, hi⟩ := nodeAt?_eq_some h
  obtain ⟨hlt, hget⟩ := List.getElem?_eq_some_iff.1 hi
  have hlen : (body.take i).length = i := by rw [List.length_take]; omega
  have hsplit : body = body.take i ++ node :: body.drop (i + 1) := by
    rw [← hget, List.getElem_cons_drop, List.take_append_drop]
  refine ⟨parent, body.take i, body.drop (i + 1), by rw [hlen], ?_⟩
  have h := replaces_updateAt (·.modify i fun _ => node') hb
  rw [← modifyAt_concat, List.modify_eq_take_cons_drop hlt] at h
  rwa [← hsplit]

theorem nodeAt?_modifyAt {node : Node} (node' : Node) (h : nodeAt? nodes path = some node) :
    nodeAt? (modifyAt (fun _ => node') nodes path) path = some node' := by
  obtain ⟨parent, before, after, rfl, hr⟩ := modifyAt_eq_updateAt node' h
  rw [nodeAt?_concat, hr.bodyAt?_new]
  simp

/-! ## What stays in place -/

/-- The second node is the first one, perhaps with more under it. -/
inductive Continues : Node → Node → Prop
  | same (node : Node) : Continues node node
  | comment {line level : Nat} {lines more : List CommentLine} :
      Continues (.leaf line (.blockComment level lines))
        (.leaf line (.blockComment level (lines ++ more)))
  | block {line level : Nat} {header : Header} {inner inner' : List Node} :
      Continues (.block line level header inner) (.block line level header inner')

theorem Continues.trans {a b c : Node} (h : Continues a b) (h' : Continues b c) :
    Continues a c := by
  cases h with
  | same => exact h'
  | comment =>
    cases h' with
    | same => exact .comment
    | comment => rw [List.append_assoc]; exact .comment
  | block =>
    cases h' with
    | same => exact .block
    | block => exact .block

theorem Continues.line_eq {a b : Node} (h : Continues a b) : b.line = a.line := by
  cases h <;> rfl

/-- Every node of the old tree is still at its path in the new one, perhaps with
    more under it. -/
def Extends (nodes nodes' : List Node) : Prop :=
  ∀ path node, nodeAt? nodes path = some node →
    ∃ node', nodeAt? nodes' path = some node' ∧ Continues node node'

theorem Extends.refl (nodes : List Node) : Extends nodes nodes :=
  fun _ node h => ⟨node, h, .same node⟩

theorem Extends.trans {a b c : List Node} (h : Extends a b) (h' : Extends b c) : Extends a c := by
  intro path node hn
  obtain ⟨node', hn', hc⟩ := h path node hn
  obtain ⟨node'', hn'', hc'⟩ := h' path node' hn'
  exact ⟨node'', hn'', hc.trans hc'⟩

theorem nodeAt?_singleton (nodes : List Node) (i : Nat) : nodeAt? nodes [i] = nodes[i]? := by
  simp [nodeAt?, bodyAt?, bind]

theorem nodeAt?_cons {i : Nat} {node : Node} (hp : path ≠ []) :
    nodeAt? nodes (i :: path) = some node ↔
      ∃ line level header inner, nodes[i]? = some (.block line level header inner) ∧
        nodeAt? inner path = some node := by
  cases path using List.reverseRecOn with
  | nil => exact absurd rfl hp
  | append_singleton parent j =>
    rw [← List.cons_append, nodeAt?_concat, Option.bind_eq_some_iff]
    constructor
    · rintro ⟨body, hb, hj⟩
      obtain ⟨line, level, header, inner, hi, hb⟩ := bodyAt?_cons.1 hb
      exact ⟨line, level, header, inner, hi, by rw [nodeAt?_concat, hb]; exact hj⟩
    · rintro ⟨line, level, header, inner, hi, hn⟩
      rw [nodeAt?_concat, Option.bind_eq_some_iff] at hn
      obtain ⟨body, hb, hj⟩ := hn
      exact ⟨body, bodyAt?_cons.2 ⟨line, level, header, inner, hi, hb⟩, hj⟩

/-- The body at a path that is not empty is that of the block at the path. -/
theorem bodyAt?_eq_some_iff (hp : path ≠ []) :
    bodyAt? nodes path = some body ↔
      ∃ line level header, nodeAt? nodes path = some (.block line level header body) := by
  cases path using List.reverseRecOn with
  | nil => exact absurd rfl hp
  | append_singleton parent i =>
    rw [bodyAt?_append, nodeAt?_concat]
    cases bodyAt? nodes parent with
    | none => simp
    | some siblings =>
      simp only [Option.bind_some]
      rw [bodyAt?_cons]
      simp only [bodyAt?, Option.some.injEq]
      constructor
      · rintro ⟨line, level, header, inner, hi, rfl⟩
        exact ⟨line, level, header, hi⟩
      · rintro ⟨line, level, header, hi⟩
        exact ⟨line, level, header, body, hi, rfl⟩

theorem Extends.block {line level : Nat} {header : Header} (h : Extends nodes nodes')
    (hn : nodeAt? nodes path = some (.block line level header body)) :
    ∃ body', nodeAt? nodes' path = some (.block line level header body') := by
  obtain ⟨node', hn', hc⟩ := h path _ hn
  cases hc with
  | same => exact ⟨body, hn'⟩
  | block => exact ⟨_, hn'⟩

theorem Extends.comment {line level : Nat} {lines : List CommentLine} (h : Extends nodes nodes')
    (hn : nodeAt? nodes path = some (.leaf line (.blockComment level lines))) :
    ∃ more, nodeAt? nodes' path = some (.leaf line (.blockComment level (lines ++ more))) := by
  obtain ⟨node', hn', hc⟩ := h path _ hn
  cases hc with
  | same => exact ⟨[], by simpa using hn'⟩
  | comment => exact ⟨_, hn'⟩

/-- A leaf that is no block comment stays as it is. -/
theorem Extends.leaf {line : Nat} {leaf : Leaf} (h : Extends nodes nodes')
    (hleaf : ∀ level lines, leaf ≠ .blockComment level lines)
    (hn : nodeAt? nodes path = some (.leaf line leaf)) :
    nodeAt? nodes' path = some (.leaf line leaf) := by
  obtain ⟨node', hn', hc⟩ := h path _ hn
  cases hc with
  | same => exact hn'
  | comment => exact absurd rfl (hleaf _ _)

/-- A body stays a body. -/
theorem Extends.bodyAt? (h : Extends nodes nodes') (hb : bodyAt? nodes path = some body) :
    ∃ body', Tree.bodyAt? nodes' path = some body' := by
  by_cases hp : path = []
  · subst hp
    exact ⟨nodes', rfl⟩
  · obtain ⟨line, level, header, hn⟩ := (bodyAt?_eq_some_iff hp).1 hb
    obtain ⟨body', hn'⟩ := h.block hn
    exact ⟨body', (bodyAt?_eq_some_iff hp).2 ⟨line, level, header, hn'⟩⟩

theorem extends_append (nodes added : List Node) : Extends nodes (nodes ++ added) := by
  intro path node h
  refine ⟨node, ?_, .same node⟩
  match path with
  | [] => simp [nodeAt?, bind] at h
  | [i] =>
    rw [nodeAt?_singleton] at h ⊢
    rw [List.getElem?_append_left (List.getElem?_eq_some_iff.1 h).1, h]
  | i :: j :: rest =>
    obtain ⟨line, level, header, inner, hi, hn⟩ := (nodeAt?_cons (by simp)).1 h
    refine (nodeAt?_cons (by simp)).2 ⟨line, level, header, inner, ?_, hn⟩
    rw [List.getElem?_append_left (List.getElem?_eq_some_iff.1 hi).1, hi]

theorem getElem?_middle {α : Type} {before after : List α} {a b : α} {i : Nat}
    (hi : i ≠ before.length) : (before ++ b :: after)[i]? = (before ++ a :: after)[i]? := by
  rcases Nat.lt_or_gt_of_ne hi with hlt | hgt
  · rw [List.getElem?_append_left hlt, List.getElem?_append_left hlt]
  · rw [List.getElem?_append_right (by omega), List.getElem?_append_right (by omega)]
    obtain ⟨k, hk⟩ : ∃ k, i - before.length = k + 1 := ⟨i - before.length - 1, by omega⟩
    rw [hk, List.getElem?_cons_succ, List.getElem?_cons_succ]

/-- Replacing one node by a continuation of it, under which all stays in place. -/
theorem extends_set {before after : List Node} {a b : Node} (hab : Continues a b)
    (hunder : ∀ path node, path ≠ [] → nodeAt? (before ++ a :: after) (before.length :: path) =
      some node → ∃ node', nodeAt? (before ++ b :: after) (before.length :: path) = some node' ∧
        Continues node node') :
    Extends (before ++ a :: after) (before ++ b :: after) := by
  intro path node h
  match path with
  | [] => simp [nodeAt?, bind] at h
  | [i] =>
    rw [nodeAt?_singleton] at h ⊢
    by_cases hi : i = before.length
    · subst hi
      simp only [List.getElem?_append_right (Nat.le_refl _), Nat.sub_self, List.getElem?_cons_zero,
        Option.some.injEq] at h ⊢
      exact ⟨b, rfl, h ▸ hab⟩
    · exact ⟨node, by rw [getElem?_middle hi, h], .same node⟩
  | i :: j :: rest =>
    by_cases hi : i = before.length
    · subst hi
      exact hunder _ node (by simp) h
    · obtain ⟨line, level, header, inner, hget, hn⟩ := (nodeAt?_cons (by simp)).1 h
      refine ⟨node, (nodeAt?_cons (by simp)).2 ⟨line, level, header, inner, ?_, hn⟩, .same node⟩
      rw [getElem?_middle hi, hget]

theorem Replaces.extends (h : Replaces body body' path nodes nodes') (hb : Extends body body') :
    Extends nodes nodes' := by
  induction h with
  | here => exact hb
  | @under before after inner inner' line level header _ _ ih =>
    refine extends_set .block fun path node hp hn => ?_
    obtain ⟨_, _, _, _, hi, hn⟩ := (nodeAt?_cons hp).1 hn
    simp only [List.getElem?_append_right (Nat.le_refl _), Nat.sub_self, List.getElem?_cons_zero,
      Option.some.injEq, Node.block.injEq] at hi
    obtain ⟨rfl, rfl, rfl, rfl⟩ := hi
    obtain ⟨node', hn', hc⟩ := ih path node hn
    exact ⟨node', (nodeAt?_cons hp).2 ⟨line, level, header, inner', by simp, hn'⟩, hc⟩

theorem extends_graft (added : List Node) (h : bodyAt? nodes path = some body) :
    Extends nodes (graft added nodes path) :=
  (replaces_graft added h).extends (extends_append body added)

/-- The nodes that were added follow those that were there. -/
theorem nodeAt?_graft {added : List Node} (h : bodyAt? nodes path = some body) (k : Nat) :
    nodeAt? (graft added nodes path) (path ++ [body.length + k]) = added[k]? := by
  rw [nodeAt?_concat, bodyAt?_graft added h, Option.bind_some,
    List.getElem?_append_right (Nat.le_add_right _ _), Nat.add_sub_cancel_left]

/-- Adding lines to a block comment leaves all in place. -/
theorem extends_comment {before after : List Node} {line level : Nat}
    {lines more : List CommentLine} :
    Extends (before ++ .leaf line (.blockComment level lines) :: after)
      (before ++ .leaf line (.blockComment level (lines ++ more)) :: after) := by
  refine extends_set .comment fun path node hp hn => ?_
  obtain ⟨_, _, _, _, hi, -⟩ := (nodeAt?_cons hp).1 hn
  simp at hi

theorem extends_modifyAt {line level : Nat} {lines : List CommentLine} (more : List CommentLine)
    (h : nodeAt? nodes path = some (.leaf line (.blockComment level lines))) :
    Extends nodes
      (modifyAt (fun _ => .leaf line (.blockComment level (lines ++ more))) nodes path) := by
  obtain ⟨parent, before, after, -, hr⟩ :=
    modifyAt_eq_updateAt (.leaf line (.blockComment level (lines ++ more))) h
  exact hr.extends extends_comment

end Tree

end IndentedSass
