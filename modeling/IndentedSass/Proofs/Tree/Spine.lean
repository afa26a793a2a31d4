/-
  The last branch of a tree.

  `Spine nodes path` says that a path goes down the last branch: each index is that
  of the last node of its body, and this node is a block.  A file whose lines nest
  properly grows at the end of its last branch only.

  * `Spine.take`, `Spine.eq_take`: the paths of the last branch are the beginnings
    of one path;
  * `Spine.graft`, `Spine.graft_block`: the branch after nodes were added at its end;
  * `Spine.listing_graft`: these nodes come last in the order of the document.
-/
import Mathlib
import IndentedSass.Proofs.Tree.Growth

namespace IndentedSass

namespace Tree

variable {added body nodes : List Node} {path q : TreePath}

/-- A path goes down the last branch of a tree. -/
inductive Spine : List Node → TreePath → Prop
  | here {nodes : List Node} : Spine nodes []
  | down {before inner : List Node} {line level : Nat} {header : Header} {path : TreePath} :
      Spine inner path →
      Spine (before ++ [.block line level header inner]) (before.length :: path)

theorem spine_cons {i : Nat} (h : Spine nodes (i :: path)) :
    ∃ before line level header inner, nodes = before ++ [.block line level header inner] ∧
      i = before.length ∧ Spine inner path := by
  generalize hp : i :: path = p at h
  cases h with
  | here => cases hp
  | down h =>
    cases hp
    exact ⟨_, _, _, _, _, rfl, rfl, h⟩

theorem Spine.bodyAt? (h : Spine nodes path) : ∃ body, Tree.bodyAt? nodes path = some body := by
  induction h with
  | here => exact ⟨_, rfl⟩
  | down _ ih => simpa [Tree.bodyAt?] using ih

theorem Spine.take (h : Spine nodes path) (k : Nat) : Spine nodes (path.take k) := by
  induction h generalizing k with
  | here => rw [List.take_nil]; exact .here
  | down _ ih =>
    cases k with
    | zero => exact .here
    | succ k => exact .down (ih k)

/-- The shorter of two paths of the last branch is the beginning of the other. -/
theorem Spine.eq_take (h : Spine nodes path) (hq : Spine nodes q) (hle : path.length ≤ q.length) :
    path = q.take path.length := by
  induction h generalizing q with
  | here => rfl
  | @down before inner line level header path h ih =>
    cases q with
    | nil => simp at hle
    | cons i q =>
      obtain ⟨before', line', level', header', inner', heq, rfl, hq⟩ := spine_cons hq
      obtain ⟨rfl, hlast⟩ := List.append_inj' heq rfl
      cases hlast
      simp only [List.length_cons, List.take_succ_cons, List.cons.injEq, true_and]
      exact ih hq (by simpa using hle)

theorem graft_down {before inner : List Node} {line level : Nat} {header : Header} :
    graft added (before ++ [.block line level header inner]) (before.length :: path) =
      before ++ [.block line level header (graft added inner path)] := by
  simp [graft, updateAt]

theorem Spine.graft (h : Spine nodes path) (added : List Node) :
    Spine (graft added nodes path) path := by
  induction h with
  | here => exact .here
  | down _ ih =>
    rw [graft_down]
    exact .down ih

/-- A block that is added behind other nodes makes the last branch longer. -/
theorem Spine.graft_block {line level : Nat} {header : Header} (h : Spine nodes path)
    (hb : Tree.bodyAt? nodes path = some body) (first : List Node) :
    Spine (Tree.graft (first ++ [.block line level header []]) nodes path)
      (path ++ [body.length + first.length]) := by
  induction h with
  | here =>
    cases hb
    rw [graft_nil, ← List.append_assoc, List.nil_append, ← List.length_append]
    exact .down .here
  | down _ ih =>
    rw [graft_down]
    exact .down (ih (by simpa [Tree.bodyAt?] using hb))

theorem listing_append (first rest : List Node) :
    listing (first ++ rest) = listing first ++ listing rest := by
  induction first with
  | nil => rfl
  | cons node first ih => simp [listing, ih]

/-- What nodes show of themselves, whatever is under them, is added at the end of the
    document when the nodes are added at the end of the last branch. -/
theorem Spine.listing_graft {α : Type} {f : Node → α}
    (hf : ∀ line level header inner inner',
      f (.block line level header inner) = f (.block line level header inner'))
    (h : Spine nodes path) (added : List Node) :
    (listing (Tree.graft added nodes path)).map f =
      (listing nodes).map f ++ (listing added).map f := by
  induction h with
  | here => rw [graft_nil, listing_append, List.map_append]
  | @down before inner line level header path _ ih =>
    rw [graft_down, listing_append, listing_append, List.map_append, List.map_append]
    simp only [listing, listingOfOne, List.append_nil, List.map_cons, ih]
    rw [hf line level header (Tree.graft added inner path) inner, List.append_assoc,
      List.cons_append]

end Tree

end IndentedSass
