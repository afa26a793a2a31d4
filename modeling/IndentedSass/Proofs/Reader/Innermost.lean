/-
  Declarations in the innermost block.

  The open blocks stand in each other (`Reader.Chained`), which every line at a tab stop
  keeps.  Where the blocks of a tree begin with their declarations, the body of a declaration
  holds no block yet, so no block is open in it.

  * `Step.innermost`: a declaration in a block belongs to the last block that is open;
  * `samePlace_below`: so it does wherever it stands below the header of that block.
-/
import Mathlib
import IndentedSass.Proofs.Reader.Outline
import IndentedSass.Proofs.Reader.SourceOrder
import IndentedSass.Proofs.Tree.Leading

namespace IndentedSass

namespace Reader

variable {find : Nat → Finder} {r r' : Reader} {info info' : LineInfo} {line : Text}
  {kind : LineKind} {nodes : List Node} {blocks : List OpenBlock} {path q : TreePath}
  {index n k : Nat}

/-! ## The bodies of the open blocks -/

theorem Under.take (h : Under blocks k path) (hk : k ≤ n) : Under (blocks.take n) k path := by
  cases h with
  | top => exact .top
  | block hget => exact .block (by rw [List.getElem?_take_of_lt hk, hget])

theorem Under.append (h : Under blocks k path) (more : List OpenBlock) :
    Under (blocks ++ more) k path := by
  cases h with
  | top => exact .top
  | block hget =>
    refine .block ?_
    rw [List.getElem?_append_left (List.getElem?_eq_some_iff.1 hget).1, hget]

theorem Under.unique (h : Under blocks k path) (h' : Under blocks k q) : path = q := by
  cases h with
  | top =>
    cases h'
    rfl
  | block hget =>
    cases h' with
    | block hget' =>
      rw [hget, Option.some.injEq] at hget'
      rw [hget']

/-- Only the top level is under no block. -/
theorem Under.eq_zero (hs : r.Sound) (h : Under r.scope.blocks k []) : k = 0 := by
  generalize hpath : ([] : TreePath) = path at h
  cases h with
  | top => rfl
  | block hget => exact absurd hpath.symm (hs.path_ne_nil (List.mem_of_getElem? hget))

/-- The open blocks stand in each other, the first one at the top level. -/
def Chained (blocks : List OpenBlock) : Prop :=
  ∀ (k : Nat) block, blocks[k]? = some block →
    ∃ parent i, Under blocks k parent ∧ block.path = parent ++ [i]

theorem chained_nil : Chained [] := fun k block h => by simp at h

theorem Chained.take (h : Chained blocks) (n : Nat) : Chained (blocks.take n) := by
  intro k block hk
  rw [List.getElem?_take] at hk
  split at hk
  · rename_i hlt
    obtain ⟨parent, i, hunder, hpath⟩ := h k block hk
    exact ⟨parent, i, hunder.take (Nat.le_of_lt hlt), hpath⟩
  · cases hk

theorem Chained.concat (h : Chained blocks) (level i : Nat) (hunder : Under blocks blocks.length path) :
    Chained (blocks ++ [⟨level, path ++ [i]⟩]) := by
  intro k block hk
  rcases getElem?_snoc hk with hold | ⟨rfl, rfl⟩
  · obtain ⟨parent, i, hparent, hpath⟩ := h k block hold
    exact ⟨parent, i, hparent.append _, hpath⟩
  · exact ⟨path, i, hunder.append _, rfl⟩

/-! ## Lines -/

/-- A line at a tab stop belongs to the body under as many open blocks as its level tells. -/
theorem under_levelOf (r : Reader)
    (hexact : info.column < r.style.tabStop ↔ info.rawLevel = 0) :
    Under r.scope.blocks (r.levelOf info) (r.target info).1 := by
  have hpos : r.style.tabStop ≤ info.column → 0 < info.rawLevel := fun hcolumn =>
    Nat.pos_of_ne_zero fun hzero => Nat.not_lt.2 hcolumn (hexact.2 hzero)
  have hunder := r.under_target hpos
  rw [levelOf]
  split at hunder
  · rename_i hcolumn
    rwa [hexact.1 hcolumn, Nat.zero_min]
  · exact hunder

/-- All places below the innermost open block are the same. -/
theorem samePlace_below (h : r.scope.blocks.length ≤ info.rawLevel)
    (h' : r.scope.blocks.length ≤ info'.rawLevel)
    (hexact : info.column < r.style.tabStop ↔ info.rawLevel = 0)
    (hexact' : info'.column < r.style.tabStop ↔ info'.rawLevel = 0) : r.SamePlace info info' := by
  -- wherever the line stands, it goes to the end of the last block
  have htarget : ∀ {info : LineInfo}, r.scope.blocks.length ≤ info.rawLevel →
      (info.column < r.style.tabStop ↔ info.rawLevel = 0) →
      (r.target info).1 = (r.scope.blocks.getLast?.map (·.path)).getD [] := by
    intro info h hexact
    unfold target
    dsimp only
    split_ifs with htop hdeep
    · have hnone : r.scope.blocks = [] := by
        rcases htop with hcolumn | hnone
        · exact List.eq_nil_of_length_eq_zero (by have := hexact.1 hcolumn; omega)
        · exact List.eq_nil_of_length_eq_zero hnone
      rw [hnone]
      rfl
    · rfl
    · rw [List.getLast?_eq_getElem?, Nat.le_antisymm h (Nat.le_of_not_lt hdeep)]
  refine ⟨?_, (htarget h' hexact').trans (htarget h hexact).symm⟩
  rw [levelOf, levelOf, Nat.min_eq_right h, Nat.min_eq_right h']

theorem Step.chained (hc : Chained r.scope.blocks)
    (huse : r.useAllowed = true → r.scope.blocks = [])
    (hunder : Under r.scope.blocks (r.levelOf info) (r.target info).1)
    (h : Step find r info line kind nodes r') : Chained r'.scope.blocks := by
  have hle : r.levelOf info ≤ r.scope.blocks.length := Nat.min_le_right ..
  have hopened : Chained (r.scope.blocks.take (r.levelOf info) ++
      [⟨r.levelOf info, r.slot info⟩]) := by
    refine (hc.take _).concat _ _ ?_
    rw [List.length_take, Nat.min_eq_left hle]
    exact hunder.take (Nat.le_refl _)
  rw [h.blocks_eq huse]
  cases kind with
  | comment | blockCommentStart | useModule => exact hc
  | selector | fontFace | mixin => exact hopened
  | _ => exact hc.take _

theorem Reads.chained (hs : r.Sound) (hc : Chained r.scope.blocks)
    (hunder : r.kindOf line ≠ .blank → r.kindOf line ≠ .blockCommentContent →
      Under r.scope.blocks (r.levelOf (r.lineInfo index line)) (r.target (r.lineInfo index line)).1)
    (h : Reads find r index line r') : Chained r'.scope.blocks := by
  cases h with
  | waits => exact hc
  | goesOn => exact hc
  | steps hblank hcontent hstep => exact hstep.chained (r := r.settled _) hc hs.use (hunder hblank hcontent)

/-! ## Declarations -/

/-- The node of a line that declares, includes or extends something. -/
theorem Step.node_declares (h : Step find r info line kind nodes r') (hkind : kind.declares = true)
    (hcolon : kind = .property ∨ kind = .variableDecl → Line.splitDeclaration? line ≠ none) :
    ∃ node, nodes = [node] ∧ node.kind.declares = true := by
  cases h with
  | opens _ ho => cases ho <;> cases hkind
  | closes _ hc =>
    cases hc with
    | property | mixinCall | extendRule => exact ⟨_, rfl, rfl⟩
    | literal | noPaths | noModule => cases hkind
    | noColon hdeclares hnone => exact absurd hnone (hcolon hdeclares)
  | declares => exact ⟨_, rfl, rfl⟩
  | keeps _ hk => cases hk <;> cases hkind
  | comments | imports | uses => cases hkind

/-- In a tree whose blocks begin with their declarations no block is open below a line that
    declares, includes or extends something in a block. -/
theorem Step.innermost (hs : r.Sound) (hc : Chained r.scope.blocks)
    (hunder : Under r.scope.blocks (r.levelOf info) (r.target info).1)
    (h : Step find (r.settled info) info line kind nodes r') (hkind : kind.declares = true)
    (hcolon : kind = .property ∨ kind = .variableDecl → Line.splitDeclaration? line ≠ none)
    (htidy : Tree.Tidy r'.nodes) (hnested : 0 < r.levelOf info) :
    r.scope.blocks.length = r.levelOf info := by
  by_contra hopen
  have hle : r.levelOf info ≤ r.scope.blocks.length := Nat.min_le_right ..
  -- the block that is open below the line stands in its body
  obtain ⟨block, hblock⟩ : ∃ block, r.scope.blocks[r.levelOf info]? = some block :=
    ⟨_, List.getElem?_eq_getElem (by omega)⟩
  obtain ⟨parent, i, hparent, hpath⟩ := hc _ _ hblock
  obtain rfl := hparent.unique hunder
  obtain ⟨n, level, header, inner, hnode⟩ := hs.blocks block (List.mem_of_getElem? hblock)
  obtain ⟨body, hb⟩ := hs.hasTarget info
  rw [hpath, Tree.nodeAt?_concat, hb] at hnode
  have hmem := List.mem_of_getElem? hnode
  -- the line comes behind it
  obtain ⟨node, rfl, hdeclares⟩ := h.node_declares hkind hcolon
  have hgrown := Tree.bodyAt?_graft (r.pendingBlanks.map (.leaf · .blank) ++ [node]) hb
  rw [← h.settled_nodes, ← List.append_assoc] at hgrown
  have htarget : (r.target info).1 ≠ [] := by
    intro htop
    rw [htop] at hunder
    exact Nat.ne_of_gt hnested (hunder.eq_zero hs)
  have hblocks := (htidy _ _ htarget hgrown).not_behind hdeclares (List.mem_append_left _ hmem)
  exact absurd hblocks (by simp [Node.children?])

end Reader

end IndentedSass
