/-
  Files whose tree keeps the order of the lines.

  A line is added to the body that its indentation tells.  It comes last in the document when
  that body is on the last branch of the tree.  A comment, or a line that is indented by less
  than a tab stop, leaves blocks open which are no longer on the last branch, so that a later
  line may come before an earlier one.

  * `Line.InOrder` says of the lines of a file, from their kinds and indentation alone, that
    every line is added to such a body: `Line.endsAfter` follows which of the open blocks end
    the document;
  * `Reader.Ends` is the invariant: these blocks are the open blocks on the last branch;
  * `readFile_sorted_iff`: the line numbers of the tree do not go back exactly in these files.
-/
import Mathlib
import IndentedSass.Proofs.Printer.Order
import IndentedSass.Proofs.Reader.Coverage
import IndentedSass.Proofs.Reader.Nesting
import IndentedSass.Proofs.Tree.Branches

namespace IndentedSass

/-! ## The condition on the lines -/

namespace Line

/-- How many of the open blocks a line is under, when `count` are open. -/
def under (tab count : Nat) (line : Text) : Nat :=
  if Indent.width tab line < tab then 0 else min (Indent.level tab (Indent.width tab line)) count

/-- The open blocks that end the document when a line is added under the first `n` of them. -/
def narrow (n : Nat) (ends : List Bool) : List Bool :=
  ends.mapIdx fun k last => last && decide (k < n)

/-- A line is added at the end of the document; `ends` tells of every open block whether it
    ends the document. -/
def FollowsOn (tab : Nat) (opened : Option Nat) (ends : List Bool) (line : Text) : Prop :=
  kind tab opened line = .blank ∨ kind tab opened line = .blockCommentContent ∨
    under tab ends.length line = 0 ∨ ends[under tab ends.length line - 1]? = some true

/-- Which of the open blocks end the document after a line of a kind and level that is under
    the first `n` of them. -/
def endsAfterKind (kind : LineKind) (n level : Nat) (ends : List Bool) : List Bool :=
  match kind with
  | .blank | .blockCommentContent => ends
  | .comment | .blockCommentStart | .useModule => narrow n ends
  | .selector | .fontFace | .mixin => (narrow n ends).take level ++ [true]
  | _ => (narrow n ends).take level

/-- Which of the open blocks end the document after a line. -/
def endsAfter (tab : Nat) (opened : Option Nat) (ends : List Bool) (line : Text) : List Bool :=
  endsAfterKind (kind tab opened line) (under tab ends.length line)
    (min (Indent.level tab (Indent.width tab line)) ends.length) ends

/-- Every line is added at the end of the document. -/
def InOrder (tab : Nat) : (ends : List Bool) → (opened : Option Nat) → List Text → Prop
  | _, _, [] => True
  | ends, opened, line :: rest =>
    FollowsOn tab opened ends line ∧
      InOrder tab (endsAfter tab opened ends line) (commentAfter tab opened line) rest

/-- Which of the open blocks end the document after lines. -/
def endsOf (tab : Nat) : (ends : List Bool) → (opened : Option Nat) → List Text → List Bool
  | ends, _, [] => ends
  | ends, opened, line :: rest =>
    endsOf tab (endsAfter tab opened ends line) (commentAfter tab opened line) rest

instance (tab : Nat) (opened : Option Nat) (ends : List Bool) (line : Text) :
    Decidable (FollowsOn tab opened ends line) := inferInstanceAs (Decidable (_ ∨ _))

instance decidableInOrder (tab : Nat) : (ends : List Bool) → (opened : Option Nat) →
    (lines : List Text) → Decidable (InOrder tab ends opened lines)
  | _, _, [] => isTrue trivial
  | ends, opened, line :: rest =>
    @instDecidableAnd _ _ inferInstance (decidableInOrder tab (endsAfter tab opened ends line)
      (commentAfter tab opened line) rest)

variable {tab : Nat} {opened : Option Nat} {ends : List Bool}

theorem inOrder_append {first rest : List Text} :
    InOrder tab ends opened (first ++ rest) ↔ InOrder tab ends opened first ∧
      InOrder tab (endsOf tab ends opened first) (first.foldl (commentAfter tab) opened) rest := by
  induction first generalizing ends opened with
  | nil => simp [InOrder, endsOf]
  | cons line first ih => simp [InOrder, endsOf, ih, and_assoc]

theorem endsOf_append (first rest : List Text) :
    endsOf tab ends opened (first ++ rest) =
      endsOf tab (endsOf tab ends opened first) (first.foldl (commentAfter tab) opened) rest := by
  induction first generalizing ends opened with
  | nil => rfl
  | cons line first ih => exact ih

@[simp] theorem length_narrow (n : Nat) (ends : List Bool) :
    (narrow n ends).length = ends.length := by simp [narrow]

theorem getElem?_narrow {n k : Nat} :
    (narrow n ends)[k]? = some true ↔ ends[k]? = some true ∧ k < n := by
  simp [narrow, List.getElem?_mapIdx, Option.map_eq_some_iff]

end Line

namespace Reader

variable {find : Nat → Finder} {r r' : Reader} {uri : Uri} {style : IndentStyle}
  {done : List Text} {info : LineInfo} {line : Text} {kind : LineKind} {m index : Nat}

/-! ## The open blocks on the last branch -/

/-- The open blocks on the last branch are those that `ends` tells, an outer one above an inner
    one. -/
structure Ends (ends : List Bool) (nodes : List Node) (blocks : List OpenBlock) : Prop where
  length : blocks.length = ends.length
  spine : ∀ (k : Nat) block, blocks[k]? = some block →
    (ends[k]? = some true ↔ Tree.Spine nodes block.path)
  deeper : ∀ (j k : Nat) outer inner, j < k → blocks[j]? = some outer → blocks[k]? = some inner →
    Tree.Spine nodes outer.path → Tree.Spine nodes inner.path →
      outer.path.length < inner.path.length

variable {ends : List Bool} {nodes nodes' added body : List Node} {blocks : List OpenBlock}
  {path : TreePath}

theorem Ends.take (h : Ends ends nodes blocks) (n : Nat) :
    Ends (ends.take n) nodes (blocks.take n) := by
  have hget : ∀ {k : Nat} {block : OpenBlock}, (blocks.take n)[k]? = some block →
      k < n ∧ blocks[k]? = some block := by
    intro k block hk
    rw [List.getElem?_take] at hk
    split at hk
    · rename_i hlt
      exact ⟨hlt, hk⟩
    · cases hk
  refine ⟨by rw [List.length_take, List.length_take, h.length], ?_, ?_⟩
  · intro k block hk
    obtain ⟨hlt, hk⟩ := hget hk
    rw [List.getElem?_take_of_lt hlt]
    exact h.spine k block hk
  · intro j k outer inner hjk hj hk
    exact h.deeper j k outer inner hjk (hget hj).2 (hget hk).2

/-- A block that is opened at the end of the document is an inner one. -/
theorem Ends.concat (h : Ends ends nodes blocks) (level : Nat) (hspine : Tree.Spine nodes path)
    (hinner : ∀ block ∈ blocks, Tree.Spine nodes block.path → block.path.length < path.length) :
    Ends (ends ++ [true]) nodes (blocks ++ [⟨level, path⟩]) := by
  refine ⟨by rw [List.length_append, List.length_append, h.length]; rfl, ?_, ?_⟩
  · intro k block hk
    rcases getElem?_snoc hk with hold | ⟨rfl, rfl⟩
    · have hlt := (List.getElem?_eq_some_iff.1 hold).1
      rw [List.getElem?_append_left (h.length ▸ hlt)]
      exact h.spine k block hold
    · rw [h.length, List.getElem?_concat_length]
      exact iff_of_true rfl hspine
  · intro j k outer inner hjk hj hk houter hin
    rcases getElem?_snoc hk with hk | ⟨rfl, rfl⟩
    · have hlt := (List.getElem?_eq_some_iff.1 hk).1
      rw [List.getElem?_append_left (by omega)] at hj
      exact h.deeper j k outer inner hjk hj hk houter hin
    · rw [List.getElem?_append_left hjk] at hj
      exact hinner outer (List.mem_of_getElem? hj) houter

/-- The body under the first `n` open blocks. -/
inductive Under (blocks : List OpenBlock) : (n : Nat) → TreePath → Prop
  | top : Under blocks 0 []
  | block {n : Nat} {block : OpenBlock} : blocks[n]? = some block → Under blocks (n + 1) block.path

theorem Ends.spine_under {n : Nat} (h : Ends ends nodes blocks) (hunder : Under blocks n path) :
    Tree.Spine nodes path ↔ n = 0 ∨ ends[n - 1]? = some true := by
  cases hunder with
  | top => exact iff_of_true .here (.inl rfl)
  | block hget => simp [h.spine _ _ hget]

/-- A block is above the nodes that are added under the first `n` open blocks if it was on the
    last branch and is one of these. -/
theorem Ends.prefix_under {n k : Nat} {block : OpenBlock} (h : Ends ends nodes blocks)
    (hunder : Under blocks n path) (hpath : Tree.Spine nodes path) (hk : blocks[k]? = some block)
    (hne : block.path ≠ []) : block.path <+: path ↔ ends[k]? = some true ∧ k < n := by
  rw [h.spine k block hk]
  constructor
  · intro hprefix
    have hspine : Tree.Spine nodes block.path := by
      have htake := hpath.take block.path.length
      rwa [← List.prefix_iff_eq_take.1 hprefix] at htake
    refine ⟨hspine, ?_⟩
    cases hunder with
    | top => exact absurd (List.prefix_nil.1 hprefix) hne
    | @block n last hget =>
      by_contra hlt
      have hdeeper := h.deeper n k last block (by omega) hget hk hpath hspine
      have hle := hprefix.length_le
      omega
  · rintro ⟨hspine, hlt⟩
    cases hunder with
    | top => exact absurd hlt (Nat.not_lt_zero k)
    | @block n last hget =>
      rcases Nat.lt_succ_iff_lt_or_eq.1 hlt with hlt | rfl
      · have hdeeper := h.deeper k n block last hlt hk hget hspine hpath
        rw [List.prefix_iff_eq_take]
        exact hspine.eq_take hpath (Nat.le_of_lt hdeeper)
      · rw [hk] at hget
        cases hget
        exact List.prefix_rfl

theorem Ends.graft {n : Nat} (h : Ends ends nodes blocks) (hunder : Under blocks n path)
    (hpath : Tree.Spine nodes path) (hadded : added ≠ [])
    (hblocks : ∀ block ∈ blocks, block.path ≠ [] ∧ ∃ body, Tree.bodyAt? nodes block.path = some body) :
    Ends (Line.narrow n ends) (Tree.graft added nodes path) blocks := by
  have hiff : ∀ {k : Nat} {block : OpenBlock}, blocks[k]? = some block →
      (Tree.Spine (Tree.graft added nodes path) block.path ↔ ends[k]? = some true ∧ k < n) := by
    intro k block hk
    obtain ⟨hne, body, hb⟩ := hblocks block (List.mem_of_getElem? hk)
    rw [hpath.graft_iff hadded hb, h.prefix_under hunder hpath hk hne]
  refine ⟨h.length.trans (Line.length_narrow n ends).symm, ?_, ?_⟩
  · intro k block hk
    rw [Line.getElem?_narrow, hiff hk]
  · intro j k outer inner hjk hj hk houter hinner
    exact h.deeper j k outer inner hjk hj hk ((h.spine j outer hj).1 ((hiff hj).1 houter).1)
      ((h.spine k inner hk).1 ((hiff hk).1 hinner).1)

/-! ## Lines -/

/-- The body that a line belongs to. -/
theorem under_target (r : Reader) (htab : r.style.tabStop ≤ info.column → 0 < info.rawLevel) :
    Under r.scope.blocks
      (if info.column < r.style.tabStop then 0 else min info.rawLevel r.scope.blocks.length)
      (r.target info).1 := by
  unfold target
  dsimp only
  by_cases hcolumn : info.column < r.style.tabStop
  · rw [if_pos hcolumn, if_pos (.inl hcolumn)]
    exact .top
  have hpos := htab (Nat.le_of_not_lt hcolumn)
  rw [if_neg hcolumn]
  by_cases hnone : r.scope.blocks.length = 0
  · rw [if_pos (.inr hnone), hnone, Nat.min_zero]
    exact .top
  rw [if_neg (not_or.2 ⟨hcolumn, hnone⟩)]
  have hblock : ∀ n, 0 < n → n ≤ r.scope.blocks.length →
      Under r.scope.blocks n ((r.scope.blocks[n - 1]?.map (·.path)).getD []) := by
    intro n hn hle
    obtain ⟨k, rfl⟩ := Nat.exists_eq_add_of_lt hn
    have hget := List.getElem?_eq_getElem (show k < r.scope.blocks.length by omega)
    rw [Nat.zero_add, Nat.add_sub_cancel, hget]
    exact .block hget
  by_cases hdeep : r.scope.blocks.length < info.rawLevel
  · rw [if_pos hdeep, Nat.min_eq_right (Nat.le_of_lt hdeep), List.getLast?_eq_getElem?]
    exact hblock _ (Nat.pos_of_ne_zero hnone) (Nat.le_refl _)
  · have hle := Nat.le_of_not_lt hdeep
    rw [if_neg hdeep, Nat.min_eq_left hle]
    exact hblock _ hpos hle

theorem Step.nodes_ne_nil (h : Step find r info line kind nodes r') : nodes ≠ [] := by
  refine List.ne_nil_of_length_pos ?_
  rw [h.length_eq, Line.nodeCount]
  split <;> omega

/-- The block comment that goes on is the last node of the document. -/
def CommentLast (r : Reader) : Prop :=
  ∀ comment, r.openComment = some comment → ∃ parent before node,
    comment.path = parent ++ [before.length] ∧
      Tree.bodyAt? r.nodes parent = some (before ++ [node]) ∧ Tree.Spine r.nodes parent

/-- The lines that have been read are in order in the tree if each was added at its end, and
    then it is known where its end is. -/
structure KeepsOrder (style : IndentStyle) (done : List Text) (r : Reader) : Prop where
  sorted : (Tree.lineNumbers r.nodes).Pairwise (· ≤ ·) ↔ Line.InOrder style.tabStop [] none done
  ends : Line.InOrder style.tabStop [] none done →
    Ends (Line.endsOf style.tabStop [] none done) r.nodes r.scope.blocks
  comment : Line.InOrder style.tabStop [] none done → r.CommentLast

theorem keepsOrder_start : KeepsOrder style [] (start uri style) := by
  refine ⟨iff_of_true List.Pairwise.nil trivial, fun _ => ⟨rfl, ?_, ?_⟩, ?_⟩
  all_goals simp [start, CommentLast]

theorem After.inOrder_snoc (ha : After uri style done r) (line : Text) :
    Line.InOrder style.tabStop [] none (done ++ [line]) ↔
      Line.InOrder style.tabStop [] none done ∧
        Line.FollowsOn style.tabStop (r.openComment.map (·.column))
          (Line.endsOf style.tabStop [] none done) line := by
  rw [Line.inOrder_append, ha.comment_eq]
  simp only [Line.InOrder, and_true]
  rfl

theorem After.endsOf_snoc (ha : After uri style done r) (line : Text) :
    Line.endsOf style.tabStop [] none (done ++ [line]) =
      Line.endsAfter style.tabStop (r.openComment.map (·.column))
        (Line.endsOf style.tabStop [] none done) line := by
  rw [Line.endsOf_append, ha.comment_eq]
  rfl

/-- A blank line, and a line that goes on with a block comment, change nothing. -/
theorem After.unplaced (ha : After uri style done r)
    (hk : r.kindOf line = .blank ∨ r.kindOf line = .blockCommentContent) :
    (Line.InOrder style.tabStop [] none (done ++ [line]) ↔
        Line.InOrder style.tabStop [] none done) ∧
      Line.endsOf style.tabStop [] none (done ++ [line]) =
        Line.endsOf style.tabStop [] none done := by
  rw [kindOf, ha.style_eq] at hk
  rw [ha.inOrder_snoc, ha.endsOf_snoc]
  rcases hk with hk | hk
  · exact ⟨and_iff_left (.inl hk), by rw [Line.endsAfter, hk]; rfl⟩
  · exact ⟨and_iff_left (.inr (.inl hk)), by rw [Line.endsAfter, hk]; rfl⟩

/-- All that was read before line `m` has a number below `m`. -/
theorem Covering.lines_lt (hc : Covering style done m r) :
    ∀ i ∈ Tree.lineNumbers r.nodes, i < m := by
  intro i hi
  by_contra hge
  have hcount := hc.counted i
  have hpos := List.count_pos_iff.2 hi
  rw [hc.waiting] at hcount
  rcases Nat.lt_or_ge i done.length with hlt | hlong
  · -- a blank line that waits is not in the tree
    have hwaits : 0 < (List.range' m (done.length - m)).count i := by
      rw [List.count_pos_iff, List.mem_range'_1]
      omega
    rw [List.getD_eq_getElem?_getD, List.getElem?_zipWith, hc.blank i (by omega) hlt,
      List.getElem?_eq_getElem hlt] at hcount
    simp only [Option.getD_some, Line.nodeCount, reduceCtorEq, if_false] at hcount
    omega
  · rw [List.getD_eq_getElem?_getD, List.getElem?_eq_none (by
      rw [List.length_zipWith, kindsOf_length, Nat.min_self]; omega)] at hcount
    simp only [Option.getD_none] at hcount
    omega

theorem KeepsOrder.waits (h : KeepsOrder style done r) (ha : After uri style done r)
    (hk : r.kindOf line = .blank) :
    KeepsOrder style (done ++ [line])
      { r with openComment := none, pendingBlanks := r.pendingBlanks ++ [index] } := by
  obtain ⟨hin, hends⟩ := ha.unplaced (.inl hk)
  refine ⟨h.sorted.trans hin.symm, fun hin' => ?_, fun _ comment hopen => nomatch hopen⟩
  rw [hends]
  exact h.ends (hin.1 hin')

theorem KeepsOrder.goesOn {comment : OpenComment} {n level : Nat} {lines : List CommentLine}
    (h : KeepsOrder style done r) (hc : Covering style done m r) (ha : After uri style done r)
    (text : Text) (hk : r.kindOf line = .blockCommentContent) (hopen : r.openComment = some comment)
    (hnode : Tree.nodeAt? r.nodes comment.path = some (.leaf n (.blockComment level lines))) :
    KeepsOrder style (done ++ [line])
      { r with
        nodes := Tree.modifyAt
          (fun _ => .leaf n (.blockComment level (lines ++ [⟨done.length, text⟩]))) r.nodes
          comment.path
        openComment := if Line.closesBlockComment line then none else some comment } := by
  obtain ⟨hin, hends⟩ := ha.unplaced (.inr hk)
  obtain ⟨parent, before, after, hpath, hr⟩ := Tree.modifyAt_eq_updateAt
    (.leaf n (.blockComment level (lines ++ [⟨done.length, text⟩]))) hnode
  -- while the lines are in order, nothing stands behind the comment
  have hlast : Line.InOrder style.tabStop [] none done →
      after = [] ∧ Tree.Spine r.nodes parent := by
    intro hin
    obtain ⟨parent', before', node, hpath', hbody, hspine⟩ := h.comment hin comment hopen
    rw [hpath] at hpath'
    obtain ⟨rfl, hlen⟩ := List.append_inj' hpath' rfl
    rw [hr.bodyAt?_old] at hbody
    have hlength := congrArg List.length (Option.some.inj hbody)
    simp only [List.length_append, List.length_cons, List.length_nil, List.cons.injEq,
      and_true] at hlength hlen
    exact ⟨List.length_eq_zero_iff.1 (by omega), hspine⟩
  obtain ⟨front, rest, hsplit, hsplit', hrest⟩ := hr.lines_split hc.ordered.lined
  have hnodes : ∀ lines, Tree.lineNumbers (before ++ .leaf n (.blockComment level lines) :: after) =
      Tree.lineNumbers before ++ lines.map CommentLine.line ++ Tree.lineNumbers after := by
    intro lines
    rw [Tree.lineNumbers_append, Tree.lineNumbers_cons, Tree.lineNumbers_leaf, List.append_assoc]
    rfl
  rw [hnodes] at hsplit hsplit'
  refine ⟨Iff.trans ⟨fun hsorted => h.sorted.1 (hsorted.sublist ?_), fun hin => ?_⟩ hin.symm,
    fun hin' => ?_, fun hin' comment' hopen' => ?_⟩
  · rw [hsplit, hsplit', List.map_append]
    simp only [List.append_assoc]
    exact ((List.Sublist.refl _).append ((List.Sublist.refl _).append
      ((List.Sublist.refl _).append (List.sublist_append_right _ _))))
  · obtain ⟨rfl, hspine⟩ := hlast hin
    have hsorted := h.sorted.2 hin
    have hlt := hc.lines_lt
    have hbound := hc.bound
    rw [hrest.2 hspine, Tree.lineNumbers_nil, List.append_nil, List.append_nil] at hsplit hsplit'
    dsimp only
    rw [hsplit', List.map_append, ← List.append_assoc, ← List.append_assoc,
      List.append_assoc front, ← hsplit]
    refine List.pairwise_append.2 ⟨hsorted, List.pairwise_singleton _ _, fun i hi j hj => ?_⟩
    rw [List.map_singleton, List.mem_singleton] at hj
    have hi := hlt i hi
    rw [hj]
    exact Nat.le_of_lt (Nat.lt_of_lt_of_le hi hbound)
  · have hold := h.ends (hin.1 hin')
    rw [hends]
    exact ⟨hold.length, fun k block hb => (hold.spine k block hb).trans hr.spine_iff.symm,
      fun j k outer inner hjk hj hk ho hi =>
        hold.deeper j k outer inner hjk hj hk (hr.spine_iff.1 ho) (hr.spine_iff.1 hi)⟩
  · obtain ⟨rfl, hspine⟩ := hlast (hin.1 hin')
    have hsame : comment' = comment := by
      dsimp only at hopen'
      split at hopen'
      · cases hopen'
      · exact (Option.some.inj hopen').symm
    subst hsame
    exact ⟨parent, before, _, hpath, hr.bodyAt?_new, hr.spine_iff.2 hspine⟩

/-- The blank lines that wait and the nodes of the line behind them come in order, and only
    then in order behind the others when they are added at the end of the last branch. -/
theorem Covering.sorted_steps (hc : Covering style done m r) (ha : After uri style done r)
    (hstep : Step find (r.settled (r.lineInfo done.length line)) (r.lineInfo done.length line) line
      kind nodes r') :
    (Tree.lineNumbers r'.nodes).Pairwise (· ≤ ·) ↔
      (Tree.lineNumbers r.nodes).Pairwise (· ≤ ·) ∧
        Tree.Spine r.nodes (r.target (r.lineInfo done.length line)).1 := by
  have hbound := hc.bound
  have hfresh : ∀ node ∈ nodes, Node.Fresh done.length node := hstep.fresh
  obtain ⟨body, hb⟩ := ha.sound.hasTarget (r.lineInfo done.length line)
  have hlines : Tree.lineNumbers (r.pendingBlanks.map (.leaf · .blank) ++ nodes) =
      List.range' m (done.length - m) ++ List.replicate nodes.length done.length := by
    rw [Tree.lineNumbers_append, Tree.lineNumbers_blanks, Tree.lineNumbers_fresh hfresh, hc.waiting]
  rw [hstep.settled_nodes]
  refine Tree.sorted_graft hb hc.ordered.lined hc.lines_lt ?_ ?_ ?_
  · rw [hlines]
    intro i hi
    rcases List.mem_append.1 hi with hi | hi
    · exact (List.mem_range'_1.1 hi).1
    · rw [List.eq_of_mem_replicate hi]
      exact hbound
  · rw [hlines]
    refine List.pairwise_append.2 ⟨List.pairwise_le_range', List.pairwise_replicate.2 (by simp), ?_⟩
    intro i hi j hj
    have hi := List.mem_range'_1.1 hi
    rw [List.eq_of_mem_replicate hj]
    omega
  · rw [hlines]
    refine List.append_ne_nil_of_right_ne_nil _ ?_
    exact fun hnil => hstep.nodes_ne_nil (by simpa using hnil)

/-- The blocks that were open, after a line was added at the end of the document. -/
theorem Ends.steps {n : Nat} (h : Ends ends r.nodes r.scope.blocks)
    (hunder : Under r.scope.blocks n (r.target info).1)
    (hspine : Tree.Spine r.nodes (r.target info).1) (hs : r.Sound)
    (hstep : Step find (r.settled info) info line kind nodes r') :
    Ends (Line.narrow n ends) r'.nodes r.scope.blocks := by
  rw [hstep.settled_nodes]
  refine h.graft hunder hspine (List.append_ne_nil_of_right_ne_nil _ hstep.nodes_ne_nil) ?_
  intro block hmem
  exact ⟨hs.path_ne_nil hmem, hs.bodyAt?_block hmem⟩

/-- The open blocks after a line that was added at the end of the document. -/
theorem Ends.reads {n : Nat} (h : Ends ends r.nodes r.scope.blocks)
    (hunder : Under r.scope.blocks n (r.target info).1)
    (hspine : Tree.Spine r.nodes (r.target info).1) (hs : r.Sound) (hblank : kind ≠ .blank)
    (hcontent : kind ≠ .blockCommentContent)
    (hstep : Step find (r.settled info) info line kind nodes r') :
    Ends (Line.endsAfterKind kind n (r.levelOf info) ends) r'.nodes r'.scope.blocks := by
  have hgraft := h.steps hunder hspine hs hstep
  -- a block is opened below all that is on the last branch
  have hopens : kind.opensBlock = true →
      Ends ((Line.narrow n ends).take (r.levelOf info) ++ [true]) r'.nodes
        (r.scope.blocks.take (r.levelOf info) ++
          [⟨r.levelOf info, (r.settled info).slot info⟩]) := by
    intro hk
    obtain ⟨header, -, hnodes, -⟩ := hstep.opened hk
    obtain ⟨body, hb⟩ := hs.hasTarget info
    have hslot : (r.settled info).slot info = (r.target info).1 ++
        [body.length + (r.pendingBlanks.map (Node.leaf · .blank)).length] := by
      have hbody := Tree.bodyAt?_graft (r.pendingBlanks.map (.leaf · .blank)) hb
      rw [slot, show (r.settled info).target info = r.target info from rfl,
        show (r.settled info).nodes = Tree.graft _ _ _ from rfl, hbody, ← List.length_append]
      rfl
    refine (hgraft.take _).concat _ ?_ fun block hmem hblock => ?_
    · rw [hstep.settled_nodes, hnodes, hslot]
      exact hspine.graft_block hb _
    · obtain ⟨inner, hinner⟩ := hs.bodyAt?_block (List.mem_of_mem_take hmem)
      rw [hstep.settled_nodes, hspine.graft_iff
        (List.append_ne_nil_of_right_ne_nil _ hstep.nodes_ne_nil) hinner] at hblock
      have hle := hblock.length_le
      rw [hslot, List.length_append, List.length_singleton]
      omega
  rw [hstep.blocks_eq hs.use]
  cases kind with
  | blank => exact absurd rfl hblank
  | blockCommentContent => exact absurd rfl hcontent
  | comment | blockCommentStart | useModule => exact hgraft
  | selector | fontFace | mixin => exact hopens rfl
  | _ => exact hgraft.take _

theorem KeepsOrder.steps (h : KeepsOrder style done r) (hc : Covering style done m r)
    (ha : After uri style done r) (hblank : r.kindOf line ≠ .blank)
    (hcontent : r.kindOf line ≠ .blockCommentContent)
    (hstep : Step find (r.settled (r.lineInfo done.length line)) (r.lineInfo done.length line) line
      (r.kindOf line) nodes r') : KeepsOrder style (done ++ [line]) r' := by
  have hkind : Line.kind style.tabStop (r.openComment.map (·.column)) line = r.kindOf line := by
    rw [kindOf, ha.style_eq]
  have hunder : Under r.scope.blocks (Line.under style.tabStop r.scope.blocks.length line)
      (r.target (r.lineInfo done.length line)).1 := by
    have htab : r.style.tabStop ≤ (r.lineInfo done.length line).column →
        0 < (r.lineInfo done.length line).rawLevel := Indent.level_pos r.style.tabStop_pos
    rw [← ha.style_eq]
    exact r.under_target htab
  -- the line follows on if its body is on the last branch
  have hfollows : Line.InOrder style.tabStop [] none done →
      (Line.FollowsOn style.tabStop (r.openComment.map (·.column))
          (Line.endsOf style.tabStop [] none done) line ↔
        Tree.Spine r.nodes (r.target (r.lineInfo done.length line)).1) := by
    intro hin
    have hends := h.ends hin
    rw [hends.spine_under hunder, Line.FollowsOn, hkind, hends.length]
    simp [hblank, hcontent]
  refine ⟨?_, fun hin => ?_, fun hin => ?_⟩
  · rw [hc.sorted_steps ha hstep, h.sorted, ha.inOrder_snoc]
    exact and_congr_right fun hin => (hfollows hin).symm
  · obtain ⟨hin, hline⟩ := (ha.inOrder_snoc line).1 hin
    have hspine := (hfollows hin).1 hline
    have hends := h.ends hin
    have hreads := hends.reads hunder hspine ha.sound hblank hcontent hstep
    rw [levelOf, lineInfo, ha.style_eq, hends.length] at hreads
    rw [ha.endsOf_snoc, Line.endsAfter, hkind]
    exact hreads
  · intro comment hopen
    obtain ⟨hin, hline⟩ := (ha.inOrder_snoc line).1 hin
    have hspine := (hfollows hin).1 hline
    obtain ⟨hpath, hnodes⟩ := hstep.comment_slot rfl hopen
    obtain ⟨body, hb⟩ := (ha.sound.settled (r.lineInfo done.length line)).hasTarget
      (r.lineInfo done.length line)
    have hbody := Tree.bodyAt?_graft nodes hb
    have hlast : Tree.Spine r'.nodes (r.target (r.lineInfo done.length line)).1 := by
      rw [hstep.settled_nodes]
      exact hspine.graft _
    rw [slot, hb] at hpath
    rw [hnodes] at hbody
    rw [hstep.nodes_eq, hnodes] at hlast ⊢
    exact ⟨(r.target (r.lineInfo done.length line)).1, body, _, hpath, hbody, hlast⟩

theorem KeepsOrder.reads (h : KeepsOrder style done r) (hc : Covering style done m r)
    (ha : After uri style done r) (hreads : Reads find r done.length line r') :
    KeepsOrder style (done ++ [line]) r' := by
  cases hreads with
  | waits hk => exact h.waits ha hk
  | goesOn text hk hopen hnode => exact h.goesOn hc ha text hk hopen hnode
  | steps hblank hcontent hstep => exact h.steps hc ha hblank hcontent hstep

/-- The blank lines that still wait at the end of a file come last. -/
theorem Covering.sorted_finish (hc : Covering style done m r) :
    (Tree.lineNumbers (r.nodes ++ r.pendingBlanks.map (.leaf · .blank))).Pairwise (· ≤ ·) ↔
      (Tree.lineNumbers r.nodes).Pairwise (· ≤ ·) := by
  rw [Tree.lineNumbers_append, Tree.lineNumbers_blanks, hc.waiting, List.pairwise_append]
  refine ⟨fun h => h.1, fun h => ⟨h, List.pairwise_le_range', fun i hi j hj => ?_⟩⟩
  have hi := hc.lines_lt i hi
  have hj := (List.mem_range'_1.1 hj).1
  omega

end Reader

/-! ## Reading a file -/

/-- The line numbers of a tree, in the order of the document, do not go back exactly when every
    line of the file was added at the end of the document.  This is the order in which the tree
    is written. -/
theorem readFile_sorted_iff {σ : Type} (resolver : Resolver σ) (files : σ) (uri : Uri)
    (style : IndentStyle) (text : Text) :
    ((Tree.lineNumbers (readFile resolver files uri style text).entry.body).Pairwise (· ≤ ·) ↔
        Line.InOrder style.tabStop [] none (text.lines.map Text.dropReturn)) ∧
      Tree.render style (readFile resolver files uri style text).entry.body =
        Text.unlines (squeeze false ((Tree.listing
          (readFile resolver files uri style text).entry.body).map (Node.shown style))).1 := by
  refine ⟨?_, Tree.render_eq style _⟩
  have hline : ∀ files done r line r', Reader.After uri style done r →
      (∃ m, Reader.Covering style done m r ∧ Reader.KeepsOrder style done r) →
      Reader.Reads (resolver.find files done.length) r done.length line r' →
      ∃ m, Reader.Covering style (done ++ [line]) m r' ∧
        Reader.KeepsOrder style (done ++ [line]) r' := by
    rintro files done r line r' ha ⟨m, hc, horder⟩ hreads
    obtain ⟨m', hc'⟩ := hc.reads ha hreads
    exact ⟨m', hc', horder.reads hc ha hreads⟩
  obtain ⟨-, m, hc, horder⟩ := Reading.readLines_run resolver
    ⟨0, Reader.covering_start, Reader.keepsOrder_start⟩ hline files text.lines
  have hfinish : (Reading.readLines resolver ⟨.start uri style, files, []⟩ 0
      text.lines).reader.flushBlanks [] = _ := Reader.flushBlanks_eq rfl
  rw [Tree.graft_nil] at hfinish
  simp only [readFile, Reading.finish, Reading.entry, hfinish]
  rw [hc.sorted_finish, horder.sorted]

/-- A comment at the first column leaves the block before it open, so that the line behind the
    comment goes into that block. -/
theorem readFile_of_outdented_comment :
    ¬(Tree.lineNumbers (readFile .detached ()
      ⟨"file".toList, none, "/a.sass".toList, none, none⟩ {}
      "a\n  b: c\n// d\n  e: f".toList).entry.body).Pairwise (· ≤ ·) := by
  decide +kernel

end IndentedSass
