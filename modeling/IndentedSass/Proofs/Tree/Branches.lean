/-
  Where a tree may grow.

  The line numbers of a tree stay in order when later lines are added at the end of its
  last branch, and only then.

  * `sorted_graft`: the order of the line numbers, after nodes were added;
  * `Spine.graft_iff`: the branch that is the last one then;
  * `Replaces.spine_iff`: replacing a leaf leaves the last branch where it was.
-/
import Mathlib
import IndentedSass.Proofs.Tree.Order
import IndentedSass.Proofs.Tree.Spine

namespace IndentedSass

namespace Tree

variable {added body body' nodes nodes' : List Node} {path q : TreePath} {m : Nat}

/-! ## The order of the lines -/

/-- Every node has a line. -/
def Lined (nodes : List Node) : Prop :=
  ∀ path node, nodeAt? nodes path = some node → node.lines ≠ []

theorem Ordered.lined (h : Ordered m nodes) : Lined nodes := by
  intro path node hn
  cases node with
  | block => exact List.cons_ne_nil _ _
  | leaf line leaf =>
    cases leaf with
    | blockComment level lines =>
      obtain ⟨hne, -⟩ := h.comments path line level lines hn
      exact fun hnil => hne (List.map_eq_nil_iff.1 hnil)
    | _ => exact List.cons_ne_nil _ _

theorem lineNumbers_ne_nil (h : Lined nodes) (hne : nodes ≠ []) : lineNumbers nodes ≠ [] := by
  obtain ⟨node, rest, rfl⟩ := List.exists_cons_of_ne_nil hne
  have hlines : node.lines ≠ [] := h [0] node (nodeAt?_singleton (node :: rest) 0)
  rw [lineNumbers_cons]
  refine List.append_ne_nil_of_left_ne_nil ?_ _
  cases node with
  | leaf line leaf =>
    rw [lineNumbers_leaf]
    exact hlines
  | block line level header inner =>
    rw [lineNumbers_block]
    exact List.cons_ne_nil _ _

theorem nodeAt?_append_right {first rest : List Node} {i : Nat} :
    nodeAt? (first ++ rest) ((first.length + i) :: path) = nodeAt? rest (i :: path) := by
  have hget : (first ++ rest)[first.length + i]? = rest[i]? := by
    rw [List.getElem?_append_right (Nat.le_add_right _ _), Nat.add_sub_cancel_left]
  cases path with
  | nil => rw [nodeAt?_singleton, nodeAt?_singleton, hget]
  | cons j path =>
    ext node
    rw [nodeAt?_cons (List.cons_ne_nil j path), nodeAt?_cons (List.cons_ne_nil j path), hget]

/-- A block has nothing behind it on the last branch. -/
theorem spine_block {before after inner : List Node} {line level : Nat} {header : Header} :
    Spine (before ++ .block line level header inner :: after) (before.length :: path) ↔
      after = [] ∧ Spine inner path := by
  constructor
  · intro h
    obtain ⟨before', line', level', header', inner', heq, hlen, hinner⟩ := spine_cons h
    obtain ⟨rfl, hlast⟩ := List.append_inj heq hlen
    cases hlast
    exact ⟨rfl, hinner⟩
  · rintro ⟨rfl, h⟩
    exact .down h

/-- The lines of a tree whose body at a path is replaced: some stand before that body and some
    behind it, none if the path goes down the last branch. -/
theorem Replaces.lines_split (h : Replaces body body' path nodes nodes') (hlined : Lined nodes) :
    ∃ before after, lineNumbers nodes = before ++ lineNumbers body ++ after ∧
      lineNumbers nodes' = before ++ lineNumbers body' ++ after ∧
      (after = [] ↔ Spine nodes path) := by
  induction h with
  | here => exact ⟨[], [], by simp, by simp, by simp [Spine.here]⟩
  | @under first last inner inner' line level header path h ih =>
    have hblock : (first ++ .block line level header inner :: last)[first.length]? =
        some (.block line level header inner) := by simp
    have hinner : Lined inner := by
      intro q node hn
      have hne : q ≠ [] := by
        rintro rfl
        cases hn
      exact hlined (first.length :: q) node
        ((nodeAt?_cons hne).2 ⟨line, level, header, inner, hblock, hn⟩)
    have hlast : lineNumbers last = [] ↔ last = [] := by
      refine ⟨fun hnil => ?_, fun hnil => hnil ▸ rfl⟩
      by_contra hne
      refine lineNumbers_ne_nil (fun q node hn => ?_) hne hnil
      cases q with
      | nil => cases hn
      | cons i q =>
        refine hlined ((first.length + (1 + i)) :: q) node ?_
        rw [nodeAt?_append_right, ← List.singleton_append]
        exact nodeAt?_append_right.trans hn
    obtain ⟨before, after, hold, hnew, hend⟩ := ih hinner
    refine ⟨lineNumbers first ++ line :: before, after ++ lineNumbers last, ?_, ?_, ?_⟩
    · rw [lineNumbers_append, lineNumbers_cons, lineNumbers_block, hold]
      simp
    · rw [lineNumbers_append, lineNumbers_cons, lineNumbers_block, hnew]
      simp
    · rw [List.append_eq_nil_iff, hend, hlast, spine_block, and_comm]

/-- Later lines are in order behind the others when they are added at the end of the last
    branch, and only then. -/
theorem sorted_graft (hb : bodyAt? nodes path = some body) (hlined : Lined nodes)
    (hold : ∀ i ∈ lineNumbers nodes, i < m) (hnew : ∀ i ∈ lineNumbers added, m ≤ i)
    (hadded : (lineNumbers added).Pairwise (· ≤ ·)) (hne : lineNumbers added ≠ []) :
    (lineNumbers (graft added nodes path)).Pairwise (· ≤ ·) ↔
      (lineNumbers nodes).Pairwise (· ≤ ·) ∧ Spine nodes path := by
  obtain ⟨before, after, hsplit, hsplit', hend⟩ := (replaces_graft added hb).lines_split hlined
  rw [lineNumbers_append] at hsplit'
  constructor
  · intro hsorted
    have hsub : (lineNumbers nodes).Sublist (lineNumbers (Tree.graft added nodes path)) := by
      rw [hsplit, hsplit', List.append_assoc, List.append_assoc, List.append_assoc]
      exact (List.Sublist.refl _).append
        ((List.Sublist.refl _).append (List.sublist_append_right _ _))
    refine ⟨hsorted.sublist hsub, hend.1 ?_⟩
    by_contra hafter
    -- a line behind the new ones is an old one
    obtain ⟨i, hi⟩ := List.exists_mem_of_ne_nil _ hne
    obtain ⟨j, hj⟩ := List.exists_mem_of_ne_nil _ hafter
    rw [hsplit'] at hsorted
    have hle := (List.pairwise_append.1 hsorted).2.2 i (by simp [hi]) j hj
    have hlt := hold j (by simp [hsplit, hj])
    have hge := hnew i hi
    omega
  · rintro ⟨hsorted, hspine⟩
    rw [hend.2 hspine, List.append_nil] at hsplit hsplit'
    rw [hsplit', ← List.append_assoc, ← hsplit]
    refine List.pairwise_append.2 ⟨hsorted, hadded, fun i hi j hj => ?_⟩
    have hlt := hold i hi
    have hge := hnew j hj
    omega

/-! ## The last branch -/

/-- When nodes are added at the end of the last branch, the branch above them is the last. -/
theorem Spine.graft_iff (h : Spine nodes path) (hne : added ≠ [])
    (hq : Tree.bodyAt? nodes q = some body) : Spine (Tree.graft added nodes path) q ↔ q <+: path := by
  constructor
  · induction h generalizing q with
    | @here nodes =>
      intro hspine
      cases q with
      | nil => exact List.nil_prefix
      | cons i q =>
        -- the new nodes are behind all that could be on the branch
        obtain ⟨before, line, level, header, inner, heq, rfl, -⟩ := spine_cons hspine
        obtain ⟨line', level', header', inner', hi, -⟩ := bodyAt?_cons.1 hq
        have hlt := (List.getElem?_eq_some_iff.1 hi).1
        have hlen := congrArg List.length heq
        have hpos := List.length_pos_of_ne_nil hne
        rw [graft_nil, List.length_append, List.length_append, List.length_singleton] at hlen
        omega
    | @down before inner line level header path h ih =>
      intro hspine
      rw [graft_down] at hspine
      cases q with
      | nil => exact List.nil_prefix
      | cons i q =>
        obtain ⟨before', line', level', header', inner', heq, rfl, hinner⟩ := spine_cons hspine
        obtain ⟨rfl, hlast⟩ := List.append_inj' heq rfl
        cases hlast
        obtain ⟨line', level', header', inner', hi, hq⟩ := bodyAt?_cons.1 hq
        rw [List.getElem?_concat_length] at hi
        cases hi
        exact List.prefix_cons_inj _ |>.2 (ih hq hinner)
  · rintro ⟨rest, rfl⟩
    have htake := (h.graft added).take q.length
    rwa [List.take_left] at htake

theorem Replaces.symm (h : Replaces body body' path nodes nodes') :
    Replaces body' body path nodes' nodes := by
  induction h with
  | here => exact .here
  | under _ ih => exact .under ih

/-- The nodes before the last one are not on the last branch. -/
theorem spine_before {before before' : List Node} {node : Node}
    (hlen : before.length = before'.length) (h : Spine (before ++ [node]) q) :
    Spine (before' ++ [node]) q := by
  cases q with
  | nil => exact .here
  | cons i q =>
    obtain ⟨first, line, level, header, inner, heq, rfl, hinner⟩ := spine_cons h
    obtain ⟨rfl, hlast⟩ := List.append_inj' heq rfl
    cases hlast
    rw [hlen]
    exact .down hinner

/-- Replacing a body leaves the last branch where it was, if it does so in that body. -/
theorem Replaces.spine (h : Replaces body body' path nodes nodes')
    (hbody : ∀ q, Spine body q → Spine body' q) (hq : Spine nodes q) : Spine nodes' q := by
  induction h generalizing q with
  | here => exact hbody q hq
  | @under before after inner inner' line level header path h ih =>
    cases q with
    | nil => exact .here
    | cons i q =>
      cases after using List.reverseRecOn with
      | nil =>
        obtain ⟨before', line', level', header', inner'', heq, rfl, hinner⟩ := spine_cons hq
        obtain ⟨rfl, hlast⟩ := List.append_inj' heq rfl
        cases hlast
        exact .down (ih hinner)
      | append_singleton after last =>
        rw [← List.cons_append, ← List.append_assoc] at hq ⊢
        exact spine_before (by simp) hq

theorem spine_leaf {before after : List Node} {line : Nat} {leaf leaf' : Leaf}
    (h : Spine (before ++ .leaf line leaf :: after) q) :
    Spine (before ++ .leaf line leaf' :: after) q := by
  cases q with
  | nil => exact .here
  | cons i q =>
    cases after using List.reverseRecOn with
    | nil =>
      obtain ⟨before', line', level', header', inner, heq, -, -⟩ := spine_cons h
      obtain ⟨-, hlast⟩ := List.append_inj' heq rfl
      cases hlast
    | append_singleton after last =>
      rw [← List.cons_append, ← List.append_assoc] at h ⊢
      exact spine_before (by simp) h

/-- Replacing a leaf leaves the last branch where it was. -/
theorem Replaces.spine_iff {before after : List Node} {line : Nat} {leaf leaf' : Leaf}
    (h : Replaces (before ++ .leaf line leaf :: after) (before ++ .leaf line leaf' :: after) path
      nodes nodes') : Spine nodes' q ↔ Spine nodes q :=
  ⟨h.symm.spine fun _ => spine_leaf, h.spine fun _ => spine_leaf⟩

end Tree

end IndentedSass
