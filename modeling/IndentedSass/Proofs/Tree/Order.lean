/-
  Trees whose lines are in order.

  `Tree.Ordered m nodes` says that the lines of a tree are below `m` and in the
  order of a document: in every body they do not go back, the lines under a block
  come after it, and the lines of a block comment are consecutive.  A tree that
  grows by later lines stays in order (`Ordered.graft`, `Ordered.goOn`).
-/
import Mathlib
import IndentedSass.Proofs.Tree.Lines

namespace IndentedSass

namespace Tree

variable {added body nodes : List Node} {path : TreePath} {m m' : Nat}

/-- The lines of a tree are below `m` and in the order of a document. -/
structure Ordered (m : Nat) (nodes : List Node) : Prop where
  below : ∀ path node, nodeAt? nodes path = some node → node.line < m
  sorted : ∀ path i j a b, i ≤ j → nodeAt? nodes (path ++ [i]) = some a →
    nodeAt? nodes (path ++ [j]) = some b → a.line ≤ b.line
  nested : ∀ path i block child, nodeAt? nodes path = some block →
    nodeAt? nodes (path ++ [i]) = some child → block.line < child.line
  comments : ∀ path line level lines,
    nodeAt? nodes path = some (.leaf line (.blockComment level lines)) →
      lines ≠ [] ∧ lines.map CommentLine.line = List.range' line lines.length

theorem ordered_nil : Ordered 0 [] := by
  have hnone : ∀ path, nodeAt? [] path = none := by
    intro path
    rw [Option.eq_none_iff_forall_ne_some]
    intro node h
    obtain ⟨parent, i, siblings, rfl, hs, hi⟩ := nodeAt?_eq_some h
    cases parent with
    | nil => cases hs; simp at hi
    | cons j parent => simp [bodyAt?] at hs
  constructor <;> simp [hnone]

theorem Ordered.mono (h : Ordered m nodes) (hm : m ≤ m') : Ordered m' nodes :=
  ⟨fun path node hn => Nat.lt_of_lt_of_le (h.below path node hn) hm, h.sorted, h.nested, h.comments⟩

/-- The body at a path holds the nodes one step further. -/
theorem getElem?_of_nodeAt? {i : Nat} {node : Node} (h : bodyAt? nodes path = some body)
    (hn : nodeAt? nodes (path ++ [i]) = some node) : body[i]? = some node := by
  rw [nodeAt?_concat, h] at hn
  exact hn

/-- A node with another one under it is a block with a body. -/
theorem bodyAt?_of_nodeAt? {i : Nat} {node : Node} (hn : nodeAt? nodes (path ++ [i]) = some node) :
    ∃ body, bodyAt? nodes path = some body ∧ body[i]? = some node := by
  rw [nodeAt?_concat, Option.bind_eq_some_iff] at hn
  exact hn

theorem Ordered.graft (h : Ordered m nodes) (hb : bodyAt? nodes path = some body)
    (hempty : ∀ line level header inner, Node.block line level header inner ∈ added → inner = [])
    (hlines : ∀ node ∈ added, m ≤ node.line ∧ node.line < m') (hm : m ≤ m')
    (hsorted : added.Pairwise (·.line ≤ ·.line))
    (hcomments : ∀ line level lines, .leaf line (.blockComment level lines) ∈ added →
      lines.map CommentLine.line = [line]) :
    Ordered m' (graft added nodes path) := by
  have hcases : ∀ {q node}, nodeAt? (Tree.graft added nodes path) q = some node →
      (∃ k, q = path ++ [body.length + k] ∧ added[k]? = some node) ∨
        ∃ old, nodeAt? nodes q = some old ∧ SameHead old node :=
    fun hn => nodeAt?_graft_cases hb hempty hn
  -- what stood at a path is not at the place of a new node
  have hnew : ∀ {k node}, nodeAt? nodes (path ++ [body.length + k]) ≠ some node := by
    intro k node hn
    have := (List.getElem?_eq_some_iff.1 (getElem?_of_nodeAt? hb hn)).1
    omega
  constructor
  · intro q node hn
    rcases hcases hn with ⟨k, -, hk⟩ | ⟨old, ho, hc⟩
    · exact (hlines node (List.mem_of_getElem? hk)).2
    · rw [hc.line_eq]
      exact Nat.lt_of_lt_of_le (h.below q old ho) hm
  · intro q i j a b hij ha hb'
    rcases hcases ha with ⟨k, hq, hk⟩ | ⟨a', ha', hca⟩
    · obtain ⟨rfl, hi⟩ := List.append_inj' hq rfl
      rcases hcases hb' with ⟨l, hq', hl⟩ | ⟨b', hb'', -⟩
      · obtain ⟨-, hj⟩ := List.append_inj' hq' rfl
        have hkl : k ≤ l := by
          simp only [List.cons.injEq, and_true] at hi hj
          omega
        rcases Nat.eq_or_lt_of_le hkl with rfl | hlt
        · rw [hk] at hl
          cases hl
          exact Nat.le_refl _
        · obtain ⟨hk', hka⟩ := List.getElem?_eq_some_iff.1 hk
          obtain ⟨hl', hlb⟩ := List.getElem?_eq_some_iff.1 hl
          rw [← hka, ← hlb]
          exact List.pairwise_iff_getElem.1 hsorted k l hk' hl' hlt
      · -- an old node does not follow a new one
        simp only [List.cons.injEq, and_true] at hi
        obtain ⟨l, rfl⟩ : ∃ l, j = body.length + l := ⟨j - body.length, by omega⟩
        exact absurd hb'' hnew
    · rw [hca.line_eq]
      rcases hcases hb' with ⟨l, -, hl⟩ | ⟨b', hb'', hcb⟩
      · have hlt := h.below _ _ ha'
        have hle := (hlines b (List.mem_of_getElem? hl)).1
        omega
      · rw [hcb.line_eq]
        exact h.sorted q i j a' b' hij ha' hb''
  · intro q i block child hblock hchild
    rcases hcases hchild with ⟨k, hq, hk⟩ | ⟨child', hchild', hcc⟩
    · obtain ⟨rfl, -⟩ := List.append_inj' hq rfl
      have hle := (hlines child (List.mem_of_getElem? hk)).1
      rcases hcases hblock with ⟨l, hq', -⟩ | ⟨block', hblock', hcb⟩
      · simp at hq'
      · rw [hcb.line_eq]
        exact Nat.lt_of_lt_of_le (h.below _ _ hblock') hle
    · rw [hcc.line_eq]
      rcases hcases hblock with ⟨l, rfl, -⟩ | ⟨block', hblock', hcb⟩
      · -- an old node does not stand under a new one
        obtain ⟨inner, hinner, -⟩ := bodyAt?_of_nodeAt? hchild'
        obtain ⟨line, level, header, hn⟩ := (bodyAt?_eq_some_iff (by simp)).1 hinner
        exact absurd hn hnew
      · rw [hcb.line_eq]
        exact h.nested q i block' child' hblock' hchild'
  · intro q line level lines hn
    rcases hcases hn with ⟨k, -, hk⟩ | ⟨old, ho, hc⟩
    · have hl := hcomments line level lines (List.mem_of_getElem? hk)
      have hlen : lines.length = 1 := by simpa using congrArg List.length hl
      refine ⟨List.ne_nil_of_length_eq_add_one hlen, ?_⟩
      rw [hl, hlen]
      rfl
    · rw [hc.leaf] at ho
      exact h.comments q line level lines ho

/-- A block comment that ends at the last line goes on with the next one. -/
theorem Ordered.goOn {line level : Nat} {lines : List CommentLine} (more : CommentLine)
    (h : Ordered m nodes) (hn : nodeAt? nodes path = some (.leaf line (.blockComment level lines)))
    (hend : line + lines.length = more.line) :
    Ordered m (modifyAt (fun _ => .leaf line (.blockComment level (lines ++ [more]))) nodes path) := by
  have hcases : ∀ {q node}, nodeAt? (modifyAt
        (fun _ => .leaf line (.blockComment level (lines ++ [more]))) nodes path) q = some node →
      ∃ old, nodeAt? nodes q = some old ∧ node.line = old.line := by
    intro q node hq
    rcases nodeAt?_modifyAt_cases hn hq with ⟨rfl, rfl⟩ | ⟨old, ho, hc⟩
    · exact ⟨_, hn, rfl⟩
    · exact ⟨old, ho, hc.line_eq⟩
  constructor
  · intro q node hq
    obtain ⟨old, ho, hline⟩ := hcases hq
    rw [hline]
    exact h.below q old ho
  · intro q i j a b hij ha hb
    obtain ⟨a', ha', hla⟩ := hcases ha
    obtain ⟨b', hb', hlb⟩ := hcases hb
    rw [hla, hlb]
    exact h.sorted q i j a' b' hij ha' hb'
  · intro q i block child hblock hchild
    obtain ⟨block', hblock', hlb⟩ := hcases hblock
    obtain ⟨child', hchild', hlc⟩ := hcases hchild
    rw [hlb, hlc]
    exact h.nested q i block' child' hblock' hchild'
  · intro q line' level' lines' hq
    rcases nodeAt?_modifyAt_cases hn hq with ⟨rfl, heq⟩ | ⟨old, ho, hc⟩
    · cases heq
      obtain ⟨-, hlines⟩ := h.comments q line level lines hn
      refine ⟨by simp, ?_⟩
      rw [List.map_append, hlines, List.length_append, List.length_singleton,
        List.range'_concat, Nat.one_mul, hend]
      rfl
    · rw [hc.leaf] at ho
      exact h.comments q line' level' lines' ho

end Tree

end IndentedSass
