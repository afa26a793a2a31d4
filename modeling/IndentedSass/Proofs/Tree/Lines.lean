/-
  The lines of a tree.

  * `Tree.lineNumbers` lists the line numbers of a tree, those of a block comment
    one by one; `count_graft` and `count_modifyAt` tell what a change adds to them;
  * `nodeAt?_graft_cases` and `nodeAt?_modifyAt_cases` tell the nodes of a changed
    tree: the old ones, and the new one or ones;
  * `path_eq_of_count`: a line that occurs once is in one place.
-/
import Mathlib
import IndentedSass.Proofs.Tree.Growth

namespace IndentedSass

/-- The lines of a node itself, without those under it. -/
def Node.lines : Node → List Nat
  | .leaf _ (.blockComment _ lines) => lines.map CommentLine.line
  | node => [node.line]

namespace Tree

variable {added body body' nodes nodes' : List Node} {path q : TreePath} {node : Node}

/-! ## Counting -/

/-- The line numbers of the nodes of a tree. -/
def lineNumbers (nodes : List Node) : List Nat := (listing nodes).flatMap Node.lines

@[simp] theorem lineNumbers_nil : lineNumbers [] = [] := rfl

theorem lineNumbers_cons (node : Node) (nodes : List Node) :
    lineNumbers (node :: nodes) = lineNumbers [node] ++ lineNumbers nodes := by
  simp [lineNumbers, listing]

theorem lineNumbers_append (first rest : List Node) :
    lineNumbers (first ++ rest) = lineNumbers first ++ lineNumbers rest := by
  induction first with
  | nil => rfl
  | cons node first ih => rw [List.cons_append, lineNumbers_cons, ih, lineNumbers_cons node first,
      List.append_assoc]

theorem lineNumbers_block (line level : Nat) (header : Header) (inner : List Node) :
    lineNumbers [.block line level header inner] = line :: lineNumbers inner := by
  simp [lineNumbers, listing, listingOfOne, Node.lines, Node.line]

theorem lineNumbers_leaf (line : Nat) (leaf : Leaf) :
    lineNumbers [.leaf line leaf] = (Node.leaf line leaf).lines := by
  simp [lineNumbers, listing, listingOfOne]

theorem Replaces.count_add (h : Replaces body body' path nodes nodes') (i : Nat) :
    (lineNumbers nodes').count i + (lineNumbers body).count i =
      (lineNumbers nodes).count i + (lineNumbers body').count i := by
  induction h with
  | here => exact Nat.add_comm _ _
  | @under before after inner inner' line level header path h ih =>
    have hsplit : ∀ inner, (lineNumbers (before ++ .block line level header inner :: after)).count i =
        (lineNumbers before).count i + (([line].count i + (lineNumbers inner).count i) +
          (lineNumbers after).count i) := by
      intro inner
      rw [lineNumbers_append, lineNumbers_cons, lineNumbers_block, List.count_append,
        List.count_append, ← List.singleton_append, List.count_append]
    rw [hsplit inner, hsplit inner']
    omega

theorem count_graft (added : List Node) (h : bodyAt? nodes path = some body) (i : Nat) :
    (lineNumbers (graft added nodes path)).count i =
      (lineNumbers nodes).count i + (lineNumbers added).count i := by
  have hcount := (replaces_graft added h).count_add i
  rw [lineNumbers_append, List.count_append] at hcount
  omega

theorem count_modifyAt {line level : Nat} {lines : List CommentLine} (more : CommentLine)
    (h : nodeAt? nodes path = some (.leaf line (.blockComment level lines))) (i : Nat) :
    (lineNumbers (modifyAt (fun _ => .leaf line (.blockComment level (lines ++ [more]))) nodes
      path)).count i = (lineNumbers nodes).count i + [more.line].count i := by
  obtain ⟨parent, before, after, -, hr⟩ :=
    modifyAt_eq_updateAt (.leaf line (.blockComment level (lines ++ [more]))) h
  have hcount := hr.count_add i
  simp only [lineNumbers_append, lineNumbers_cons _ after, lineNumbers_leaf, Node.lines,
    List.count_append, List.map_append, List.map_cons, List.map_nil] at hcount
  omega

/-! ## The nodes of a changed tree -/

/-- The second node is the first one, or the same block with another body. -/
inductive SameHead : Node → Node → Prop
  | same (node : Node) : SameHead node node
  | block {line level : Nat} {header : Header} {inner inner' : List Node} :
      SameHead (.block line level header inner) (.block line level header inner')

theorem SameHead.line_eq {a b : Node} (h : SameHead a b) : b.line = a.line := by
  cases h <;> rfl

theorem SameHead.leaf {a : Node} {line : Nat} {leaf : Leaf} (h : SameHead a (.leaf line leaf)) :
    a = .leaf line leaf := by
  cases h
  rfl

theorem nodeAt?_append {rest : TreePath} (hr : rest ≠ []) :
    nodeAt? nodes (path ++ rest) = (bodyAt? nodes path).bind (nodeAt? · rest) := by
  cases rest using List.reverseRecOn with
  | nil => exact absurd rfl hr
  | append_singleton parent i =>
    simp only [← List.append_assoc, nodeAt?_concat, bodyAt?_append]
    cases bodyAt? nodes path <;> rfl

/-- A node of the tree with a replaced body is under the new body, or was there
    before. -/
theorem Replaces.nodeAt?_cases (h : Replaces body body' path nodes nodes')
    (hn : nodeAt? nodes' q = some node) :
    (∃ rest, rest ≠ [] ∧ q = path ++ rest ∧ nodeAt? body' rest = some node) ∨
      ∃ old, nodeAt? nodes q = some old ∧ SameHead old node := by
  induction h generalizing q with
  | here =>
    refine .inl ⟨q, ?_, rfl, hn⟩
    rintro rfl
    cases hn
  | @under before after inner inner' line level header path h ih =>
    -- the path either avoids the block that changed, or ends at it, or goes into it
    match q with
    | [] => cases hn
    | [i] =>
      rw [nodeAt?_singleton] at hn
      right
      rw [nodeAt?_singleton]
      by_cases hi : i = before.length
      · subst hi
        simp only [List.getElem?_append_right (Nat.le_refl _), Nat.sub_self,
          List.getElem?_cons_zero, Option.some.injEq] at hn ⊢
        exact ⟨_, rfl, hn ▸ .block⟩
      · exact ⟨node, by rw [getElem?_middle hi, hn], .same node⟩
    | i :: j :: rest =>
      obtain ⟨line', level', header', mid, hi, hmid⟩ := (nodeAt?_cons (by simp)).1 hn
      by_cases hlen : i = before.length
      · subst hlen
        simp only [List.getElem?_append_right (Nat.le_refl _), Nat.sub_self,
          List.getElem?_cons_zero, Option.some.injEq, Node.block.injEq] at hi
        obtain ⟨rfl, rfl, rfl, rfl⟩ := hi
        rcases ih hmid with ⟨tail, hne, hq, ht⟩ | ⟨old, ho, hc⟩
        · exact .inl ⟨tail, hne, by rw [hq, List.cons_append], ht⟩
        · exact .inr ⟨old, (nodeAt?_cons (by simp)).2 ⟨line, level, header, inner, by simp, ho⟩, hc⟩
      · refine .inr ⟨node, (nodeAt?_cons (by simp)).2 ⟨line', level', header', mid, ?_, hmid⟩,
          .same node⟩
        rw [getElem?_middle hlen, hi]

/-- A node of a tree that grew by nodes without children is one of these, or was
    there before. -/
theorem nodeAt?_graft_cases (h : bodyAt? nodes path = some body)
    (hadded : ∀ line level header inner, Node.block line level header inner ∈ added → inner = [])
    (hn : nodeAt? (graft added nodes path) q = some node) :
    (∃ k, q = path ++ [body.length + k] ∧ added[k]? = some node) ∨
      ∃ old, nodeAt? nodes q = some old ∧ SameHead old node := by
  rcases (replaces_graft added h).nodeAt?_cases hn with ⟨rest, hne, rfl, hr⟩ | hold
  · obtain ⟨parent, i, siblings, rfl, hs, hi⟩ := nodeAt?_eq_some hr
    cases parent with
    | nil =>
      cases hs
      rcases Nat.lt_or_ge i body.length with hlt | hge
      · rw [List.getElem?_append_left hlt] at hi
        refine .inr ⟨node, ?_, .same node⟩
        rw [nodeAt?_append hne, h]
        exact (nodeAt?_singleton body i).trans hi
      · rw [List.getElem?_append_right hge] at hi
        refine .inl ⟨i - body.length, ?_, hi⟩
        rw [Nat.add_sub_cancel' hge]
        rfl
    | cons j parent =>
      obtain ⟨line, level, header, inner, hj, hb⟩ := bodyAt?_cons.1 hs
      rcases Nat.lt_or_ge j body.length with hlt | hge
      · rw [List.getElem?_append_left hlt] at hj
        refine .inr ⟨node, ?_, .same node⟩
        rw [nodeAt?_append hne, h, Option.bind_some, nodeAt?_concat,
          bodyAt?_cons.2 ⟨line, level, header, inner, hj, hb⟩]
        exact hi
      · -- a node that was added has nothing under it
        rw [List.getElem?_append_right hge] at hj
        have hinner := hadded _ _ _ _ (List.mem_of_getElem? hj)
        subst hinner
        cases parent with
        | nil =>
          cases hb
          simp at hi
        | cons k parent => simp [bodyAt?] at hb
  · exact .inr hold

theorem nodeAt?_modifyAt_cases {line level : Nat} {lines more : List CommentLine}
    (h : nodeAt? nodes path = some (.leaf line (.blockComment level lines)))
    (hn : nodeAt? (modifyAt (fun _ => .leaf line (.blockComment level (lines ++ more))) nodes path)
      q = some node) :
    (q = path ∧ node = .leaf line (.blockComment level (lines ++ more))) ∨
      ∃ old, nodeAt? nodes q = some old ∧ SameHead old node := by
  obtain ⟨parent, before, after, rfl, hr⟩ :=
    modifyAt_eq_updateAt (.leaf line (.blockComment level (lines ++ more))) h
  rcases hr.nodeAt?_cases hn with ⟨rest, hne, rfl, hrest⟩ | hold
  · obtain ⟨inner, i, siblings, rfl, hs, hi⟩ := nodeAt?_eq_some hrest
    cases inner with
    | nil =>
      cases hs
      by_cases hlen : i = before.length
      · subst hlen
        simp only [List.getElem?_append_right (Nat.le_refl _), Nat.sub_self,
          List.getElem?_cons_zero, Option.some.injEq] at hi
        exact .inl ⟨rfl, hi.symm⟩
      · refine .inr ⟨node, ?_, .same node⟩
        rw [nodeAt?_append hne, hr.bodyAt?_old, Option.bind_some, List.nil_append,
          nodeAt?_singleton, getElem?_middle hlen, hi]
    | cons j inner =>
      obtain ⟨line', level', header', mid, hj, hb⟩ := bodyAt?_cons.1 hs
      by_cases hlen : j = before.length
      · -- there is nothing under a comment
        subst hlen
        simp at hj
      · refine .inr ⟨node, ?_, .same node⟩
        rw [nodeAt?_append hne, hr.bodyAt?_old, Option.bind_some, nodeAt?_concat,
          bodyAt?_cons.2 ⟨line', level', header', mid, (getElem?_middle hlen).trans hj, hb⟩]
        exact hi
  · exact .inr hold

/-! ## Lines that occur once -/

theorem count_le_of_mem (h : node ∈ nodes) (i : Nat) :
    (lineNumbers [node]).count i ≤ (lineNumbers nodes).count i := by
  obtain ⟨before, after, rfl⟩ := List.append_of_mem h
  rw [lineNumbers_append, lineNumbers_cons node after, List.count_append, List.count_append]
  omega

theorem mem_lineNumbers_of_mem {i : Nat} (h : node ∈ nodes) (hi : i ∈ lineNumbers [node]) :
    i ∈ lineNumbers nodes :=
  List.count_pos_iff.1 (Nat.lt_of_lt_of_le (List.count_pos_iff.2 hi) (count_le_of_mem h i))

theorem mem_lineNumbers_self {i : Nat} (hi : i ∈ node.lines) : i ∈ lineNumbers [node] := by
  cases node with
  | leaf => rwa [lineNumbers_leaf]
  | block =>
    rw [lineNumbers_block]
    exact List.mem_cons.2 (.inl (List.mem_singleton.1 hi))

/-- The lines of a node are among those of the node that its path begins with. -/
theorem exists_head_of_nodeAt? {i m : Nat} (h : nodeAt? nodes (m :: path) = some node)
    (hi : i ∈ node.lines) : ∃ head, nodes[m]? = some head ∧ i ∈ lineNumbers [head] := by
  induction path generalizing nodes m with
  | nil => exact ⟨node, (nodeAt?_singleton ..).symm.trans h, mem_lineNumbers_self hi⟩
  | cons n path ih =>
    obtain ⟨line, level, header, inner, hm, hinner⟩ := (nodeAt?_cons (List.cons_ne_nil n path)).1 h
    obtain ⟨head, hn, hmem⟩ := ih hinner
    refine ⟨_, hm, ?_⟩
    rw [lineNumbers_block]
    exact List.mem_cons_of_mem _ (mem_lineNumbers_of_mem (List.mem_of_getElem? hn) hmem)

/-- A line that occurs once is on one of the nodes side by side. -/
theorem index_eq_of_count {i m n : Nat} {a b : Node} (hcount : (lineNumbers nodes).count i ≤ 1)
    (hm : nodes[m]? = some a) (hn : nodes[n]? = some b) (ha : i ∈ lineNumbers [a])
    (hb : i ∈ lineNumbers [b]) : m = n := by
  have hle : ∀ {m n : Nat} {a b : Node}, nodes[m]? = some a → nodes[n]? = some b →
      i ∈ lineNumbers [a] → i ∈ lineNumbers [b] → n ≤ m := by
    intro m n a b hm hn ha hb
    by_contra hlt
    have hfirst : i ∈ lineNumbers (nodes.take n) :=
      mem_lineNumbers_of_mem (List.mem_of_getElem? ((List.getElem?_take_of_lt (by omega)).trans hm)) ha
    have hrest : i ∈ lineNumbers (nodes.drop n) :=
      mem_lineNumbers_of_mem (List.mem_of_getElem? (i := 0) (by rw [List.getElem?_drop]; exact hn)) hb
    rw [← List.take_append_drop n nodes, lineNumbers_append, List.count_append] at hcount
    have hleft := List.count_pos_iff.2 hfirst
    have hright := List.count_pos_iff.2 hrest
    omega
  exact Nat.le_antisymm (hle hn hm hb ha) (hle hm hn ha hb)

/-- What stands under a block is on other lines than a block whose line occurs once. -/
theorem not_mem_under_of_count {i m : Nat} {block inner : Node}
    (hcount : (lineNumbers nodes).count i ≤ 1) (hm : nodes[m]? = some block)
    (hi : i ∈ block.lines) (hpath : path ≠ []) (hn : nodeAt? nodes (m :: path) = some inner) :
    i ∉ inner.lines := by
  intro hinner
  obtain ⟨line, level, header, body, hblock, hunder⟩ := (nodeAt?_cons hpath).1 hn
  cases hm.symm.trans hblock
  obtain rfl : i = line := List.mem_singleton.1 hi
  obtain ⟨n, rest, rfl⟩ := List.exists_cons_of_ne_nil hpath
  obtain ⟨head, hhead, hmem⟩ := exists_head_of_nodeAt? hunder hinner
  have hbelow := List.count_pos_iff.2 (mem_lineNumbers_of_mem (List.mem_of_getElem? hhead) hmem)
  have hle := count_le_of_mem (List.mem_of_getElem? hblock) i
  rw [lineNumbers_block, List.count_cons_self] at hle
  omega

/-- A line that occurs once is in one place. -/
theorem path_eq_of_count {i : Nat} {a b : Node} (hcount : (lineNumbers nodes).count i ≤ 1)
    (ha : nodeAt? nodes path = some a) (hb : nodeAt? nodes q = some b) (hai : i ∈ a.lines)
    (hbi : i ∈ b.lines) : path = q := by
  induction path generalizing nodes q with
  | nil => cases ha
  | cons m path ih =>
    cases q with
    | nil => cases hb
    | cons n q =>
      obtain ⟨x, hx, hxi⟩ := exists_head_of_nodeAt? ha hai
      obtain ⟨y, hy, hyi⟩ := exists_head_of_nodeAt? hb hbi
      obtain rfl := index_eq_of_count hcount hx hy hxi hyi
      by_cases hpath : path = []
      · subst hpath
        rw [nodeAt?_singleton] at ha
        by_contra hq
        exact not_mem_under_of_count hcount ha hai (fun h => hq (by rw [h])) hb hbi
      by_cases hq : q = []
      · subst hq
        rw [nodeAt?_singleton] at hb
        exact absurd hai (not_mem_under_of_count hcount hb hbi hpath ha)
      -- both go on into the same block
      obtain ⟨line, level, header, inner, hm, hinner⟩ := (nodeAt?_cons hpath).1 ha
      obtain ⟨_, _, _, _, hm', hinner'⟩ := (nodeAt?_cons hq).1 hb
      cases hm.symm.trans hm'
      have hle := count_le_of_mem (List.mem_of_getElem? hm) i
      rw [lineNumbers_block] at hle
      rw [ih ((List.count_le_count_cons).trans (hle.trans hcount)) hinner hinner']

end Tree

end IndentedSass
